/-
This file proves that the sample of requests that a plot shows has some of each operation.

The groups of the operations get quotas in proportion to their sizes, each at least one, and the
largest quotas are lowered until the sum is within the limit. Each group is then sampled evenly, so
the indices are distinct and there are as many as the quotas say.
-/

import EbpfStudio.Protocol.Event

namespace EbpfStudio

open List

def evenlySampleIndices (length limit : Nat) : List Nat :=
  if length ≤ limit then range length
  else if limit ≤ 1 then range limit
  else (range limit).map fun index => index * (length - 1) / (limit - 1)

/-- The keys of the map of the groups, in the order of the enumeration. -/
def presentOperations (samples : List CompletedIo) : List IoOperation :=
  [.read, .write, .flush, .discard, .other].filter fun operation =>
    samples.any (·.issue.operation = operation)

def operationGroups (samples : List CompletedIo) : List (List Nat) :=
  (presentOperations samples).map fun operation =>
    (range samples.length).filter fun index => samples[index]?.any (·.issue.operation = operation)

/-- The last of the largest quotas loses one. -/
def decrementLargest : List Nat → List Nat
  | [] => []
  | value :: rest =>
    if rest.any (value ≤ ·) then value :: decrementLargest rest else (value - 1) :: rest

theorem sum_decrementLargest {quota : List Nat} (positive : 0 < quota.sum) :
    (decrementLargest quota).sum + 1 = quota.sum := by
  induction quota with
  | nil => cases positive
  | cons value rest hypothesis =>
    rw [decrementLargest]
    split
    case isTrue later =>
      obtain ⟨other, member, least⟩ := any_eq_true.mp later
      have bound := le_sum_of_mem member
      grind
    case isFalse last =>
      cases rest with grind

def fitQuota (limit : Nat) (quota : List Nat) : List Nat :=
  if limit < quota.sum then fitQuota limit (decrementLargest quota) else quota
termination_by quota.sum
decreasing_by
  have smaller := @sum_decrementLargest quota (by omega)
  omega

def pickGroup (group : List Nat) (count : Nat) : List Nat :=
  (evenlySampleIndices group.length count).map (group.getD · 0)

def sampleGroups : List (List Nat) → List Nat → List Nat
  | group :: groups, count :: quota => pickGroup group count ++ sampleGroups groups quota
  | _, _ => []

def operationSampleIndices (samples : List CompletedIo) (limit : Nat) : List Nat :=
  if samples.length ≤ limit then range samples.length
  else
    let groups := operationGroups samples
    if limit < groups.length then evenlySampleIndices samples.length limit
    else
      let quota := fitQuota limit
        (groups.map fun group => max (limit * group.length / samples.length) 1)
      (sampleGroups groups quota).insertionSort (· ≤ ·)

/-! ### Even samples -/

theorem evenlySampleIndices_spec (length limit : Nat) :
    (evenlySampleIndices length limit).Pairwise (· < ·) ∧
      (evenlySampleIndices length limit).length = min length limit ∧
      ∀ index ∈ evenlySampleIndices length limit, index < length := by
  unfold evenlySampleIndices
  split
  · simp [pairwise_lt_range, *]
  · split
    · grind [pairwise_lt_range]
    · have positive : 0 < limit - 1 := by omega
      have increasing : StrictMono fun index => index * (length - 1) / (limit - 1) := by
        refine strictMono_nat_of_lt_succ fun index => (Nat.le_div_iff_mul_le positive).mpr ?_
        have part := Nat.div_mul_le_self (index * (length - 1)) (limit - 1)
        rw [Nat.succ_mul, Nat.succ_mul]
        omega
      refine ⟨pairwise_map.mpr (pairwise_lt_range.imp fun before => increasing before), ?_, ?_⟩
      · rw [length_map, length_range]
        omega
      · intro index member
        obtain ⟨place, inside, rfl⟩ := mem_map.mp member
        have last := increasing.monotone (Nat.le_pred_of_lt (mem_range.mp inside))
        dsimp only [Nat.pred_eq_sub_one] at last
        rw [Nat.mul_div_cancel_left _ positive] at last
        omega

theorem pickGroup_spec (group : List Nat) (count : Nat) :
    (group.Nodup → (pickGroup group count).Nodup) ∧ pickGroup group count ⊆ group ∧
      (pickGroup group count).length = min group.length count := by
  obtain ⟨increasing, size, within⟩ := evenlySampleIndices_spec group.length count
  refine ⟨fun unique => ?_, by grind [pickGroup], by rw [pickGroup, length_map, size]⟩
  refine (nodup_map_iff_inj_on (increasing.imp ne_of_lt)).mpr ?_
  grind [Nodup.getElem_inj_iff]

/-! ### Quotas -/

theorem length_decrementLargest (quota : List Nat) :
    (decrementLargest quota).length = quota.length := by
  induction quota with grind [decrementLargest]

theorem one_le_decrementLargest {quota : List Nat} (positive : ∀ count ∈ quota, 1 ≤ count)
    (large : ∃ count ∈ quota, 2 ≤ count) : ∀ count ∈ decrementLargest quota, 1 ≤ count := by
  induction quota with
  | nil => exact positive
  | cons value rest hypothesis =>
    obtain ⟨first, others⟩ := forall_mem_cons.mp positive
    obtain ⟨count, here, two⟩ := large
    rw [decrementLargest]
    split
    case isTrue later =>
      obtain ⟨other, member, least⟩ := any_eq_true.mp later
      refine forall_mem_cons.mpr ⟨first, hypothesis others ?_⟩
      rcases mem_cons.mp here with rfl | behind
      · exact ⟨other, member, two.trans (of_decide_eq_true least)⟩
      · exact ⟨count, behind, two⟩
    case isFalse last => grind

/-- As long as the quotas are too many, one of them is at least two, so none of them becomes
zero. -/
theorem fitQuota_spec {limit : Nat} {quota : List Nat} (room : quota.length ≤ limit)
    (positive : ∀ count ∈ quota, 1 ≤ count) :
    (fitQuota limit quota).sum ≤ limit ∧ (fitQuota limit quota).length = quota.length ∧
      ∀ count ∈ fitQuota limit quota, 1 ≤ count := by
  induction quota using fitQuota.induct limit with
  | case1 quota excess hypothesis =>
    have large : ∃ count ∈ quota, 2 ≤ count := by
      by_contra none
      have small := sum_le_card_nsmul quota 1 (by grind)
      rw [nsmul_eq_mul, Nat.cast_id] at small
      omega
    rw [fitQuota, if_pos excess, ← length_decrementLargest quota]
    rw [← length_decrementLargest quota] at room
    exact hypothesis room (one_le_decrementLargest positive large)
  | case2 quota fits =>
    rw [fitQuota, if_neg fits]
    exact ⟨not_lt.mp fits, rfl, positive⟩

/-! ### Groups -/

theorem sampleGroups_spec {groups : List (List Nat)} {quota : List Nat}
    (same : quota.length = groups.length) :
    (∀ index ∈ sampleGroups groups quota, ∃ group ∈ groups, index ∈ group) ∧
      (sampleGroups groups quota).length ≤ quota.sum ∧
      ((∀ group ∈ groups, group.Nodup) → groups.Pairwise Disjoint →
        (sampleGroups groups quota).Nodup) ∧
      ((∀ count ∈ quota, 1 ≤ count) → ∀ group ∈ groups, group ≠ [] →
        ∃ index ∈ sampleGroups groups quota, index ∈ group) := by
  fun_induction sampleGroups groups quota with
  | case1 group groups count quota hypothesis =>
    obtain ⟨unique, part, size⟩ := pickGroup_spec group count
    obtain ⟨inside, few, apart, each⟩ := hypothesis (Nat.succ.inj same)
    refine ⟨by grind, by grind, fun nodup disjoint => ?_, fun positive => ?_⟩
    · obtain ⟨first, rest⟩ := pairwise_cons.mp disjoint
      refine nodup_append'.mpr ⟨unique (nodup group mem_cons_self), apart (by grind) rest, ?_⟩
      intro index here behind
      obtain ⟨other, member, shared⟩ := inside index behind
      exact first other member (part here) shared
    · obtain ⟨first, rest⟩ := forall_mem_cons.mp positive
      refine forall_mem_cons.mpr ⟨fun nonempty => ?_, by grind⟩
      have some := length_pos_of_ne_nil nonempty
      obtain ⟨index, chosen⟩ := exists_mem_of_length_pos (l := pickGroup group count) (by omega)
      exact ⟨index, mem_append_left _ chosen, part chosen⟩
  | case2 groups quota none =>
    have empty : groups = [] := by cases groups <;> cases quota <;> grind
    grind

theorem mem_operationGroup {samples : List CompletedIo} {operation : IoOperation} {index : Nat} :
    index ∈ (range samples.length).filter
        (fun index => samples[index]?.any (·.issue.operation = operation)) ↔
      samples[index]?.map (·.issue.operation) = some operation := by
  grind

theorem mem_presentOperations {samples : List CompletedIo} {operation : IoOperation} :
    operation ∈ presentOperations samples ↔ operation ∈ samples.map (·.issue.operation) := by
  unfold presentOperations
  cases operation <;> grind

theorem nodup_presentOperations (samples : List CompletedIo) :
    (presentOperations samples).Nodup :=
  Nodup.filter _ (by decide)

/-- The sample has distinct indices in order, no more than the limit, and one at least of each
operation if the limit allows it. The products of the source are words of 64 bits; each is at most
`limit * samples.length`, so none of them wraps while this is below `2 ^ 64`. -/
theorem operation_sample_is_fair (samples : List CompletedIo) (limit : Nat) :
    (operationSampleIndices samples limit).Pairwise (· < ·) ∧
    (∀ index ∈ operationSampleIndices samples limit, index < samples.length) ∧
    (operationSampleIndices samples limit).length ≤ limit ∧
    (samples.length ≤ limit → operationSampleIndices samples limit = range samples.length) ∧
    ((samples.map (·.issue.operation)).dedup.length ≤ limit → ∀ io ∈ samples,
      ∃ index ∈ operationSampleIndices samples limit,
        samples[index]?.map (·.issue.operation) = some io.issue.operation) := by
  have count : (operationGroups samples).length =
      (samples.map (·.issue.operation)).dedup.length := by
    refine (length_map _).trans (Perm.length_eq ((perm_ext_iff_of_nodup
      (nodup_presentOperations samples) (nodup_dedup _)).mpr fun operation => ?_))
    rw [mem_dedup, mem_presentOperations]
  unfold operationSampleIndices
  split
  case isTrue fits =>
    refine ⟨pairwise_lt_range, by grind, by grind, fun _ => rfl, fun _ io member => ?_⟩
    obtain ⟨index, bound, rfl⟩ := getElem_of_mem member
    exact ⟨index, mem_range.mpr bound, by rw [getElem?_eq_getElem bound]; rfl⟩
  case isFalse many =>
    dsimp only
    split
    case isTrue few =>
      obtain ⟨increasing, size, within⟩ := evenlySampleIndices_spec samples.length limit
      exact ⟨increasing, within, by omega, fun fits => absurd fits many,
        fun room => absurd room (by omega)⟩
    case isFalse room =>
      obtain ⟨total, same, positive⟩ := @fitQuota_spec limit
        ((operationGroups samples).map fun group => max (limit * group.length / samples.length) 1)
        (by rw [length_map]; omega) (by simp)
      obtain ⟨inside, few, unique, each⟩ := sampleGroups_spec (same.trans (length_map _))
      have nodup := by
        refine unique (forall_mem_map.mpr fun operation _ => nodup_range.filter _) ?_
        refine pairwise_map.mpr ((nodup_presentOperations samples).imp fun different => ?_)
        intro index first second
        rw [mem_operationGroup] at first second
        exact different (Option.some.inj (first.symm.trans second))
      refine ⟨?_, fun index member => ?_, ?_, fun fits => absurd fits many, fun _ io member => ?_⟩
      · refine ((pairwise_insertionSort (· ≤ ·) _).and
          ((perm_insertionSort (· ≤ ·) _).nodup_iff.mpr nodup)).imp fun pair => ?_
        exact lt_of_le_of_ne pair.1 pair.2
      · obtain ⟨group, listed, within⟩ := inside index ((mem_insertionSort _).mp member)
        obtain ⟨operation, _, rfl⟩ := mem_map.mp listed
        exact mem_range.mp (mem_filter.mp within).1
      · rw [length_insertionSort]
        exact few.trans total
      · obtain ⟨index, bound, rfl⟩ := getElem_of_mem member
        obtain ⟨chosen, listed, within⟩ := each positive _
          (mem_map_of_mem (mem_presentOperations.mpr (mem_map_of_mem member)))
          (ne_nil_of_mem (a := index) (mem_operationGroup.mpr (by
            rw [getElem?_eq_getElem bound]; rfl)))
        exact ⟨chosen, (mem_insertionSort _).mpr listed, mem_operationGroup.mp within⟩

end EbpfStudio
