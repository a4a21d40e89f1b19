/-
This file measures how many instants a list of half-open intervals covers.

The instants are a finite set, so overlapping intervals count once and the order of the list does
not matter. `sweep` goes through intervals that are sorted by their starts, as programs do, and
counts the runs that they form. It gives the number of covered instants (`sweep_eq_card`).
-/

import Mathlib

namespace Coverage

open List Finset

def covered : List (Nat × Nat) → Finset Nat
  | [] => ∅
  | interval :: rest => Finset.Ico interval.1 interval.2 ∪ covered rest

variable {intervals : List (Nat × Nat)}

theorem mem_covered {instant : Nat} :
    instant ∈ covered intervals ↔
      ∃ interval ∈ intervals, interval.1 ≤ instant ∧ instant < interval.2 := by
  induction intervals with
  | nil => simp [covered]
  | cons interval rest hypothesis =>
    rw [covered, Finset.mem_union, Finset.mem_Ico, hypothesis]
    simp only [List.mem_cons, exists_eq_or_imp]

theorem covered_append (first second : List (Nat × Nat)) :
    covered (first ++ second) = covered first ∪ covered second := by
  induction first with
  | nil => rw [nil_append, covered, empty_union]
  | cons interval rest hypothesis =>
    rw [cons_append, covered, covered, hypothesis, union_assoc]

theorem covered_eq_of_perm_filter {intervals others : List (Nat × Nat)}
    (same : others.Perm (intervals.filter fun interval => interval.1 ≤ interval.2)) :
    covered others = covered intervals := by
  ext instant
  rw [mem_covered, mem_covered]
  constructor
  · rintro ⟨interval, member, inside⟩
    exact ⟨interval, mem_of_mem_filter (same.mem_iff.mp member), inside⟩
  · rintro ⟨interval, member, inside⟩
    have proper : interval.1 ≤ interval.2 := by omega
    exact ⟨interval, same.mem_iff.mpr (mem_filter.mpr ⟨member, by simpa using proper⟩),
      inside⟩

theorem card_covered_le {bound : Nat} (below : ∀ interval ∈ intervals, interval.2 ≤ bound) :
    (covered intervals).card ≤ bound := by
  have inside : covered intervals ⊆ range bound := by
    intro instant member
    obtain ⟨interval, listed, -, before⟩ := mem_covered.mp member
    exact Finset.mem_range.mpr (lt_of_lt_of_le before (below interval listed))
  simpa using Finset.card_le_card inside

theorem disjoint_covered {start finish : Nat} (after : ∀ other ∈ intervals, finish ≤ other.1) :
    Disjoint (Finset.Ico start finish) (covered intervals) := by
  rw [Finset.disjoint_left]
  intro instant early late
  obtain ⟨other, member, begins, -⟩ := mem_covered.mp late
  have ordered := after other member
  rw [mem_Ico] at early
  omega

/-- Extend the run from `start` to `finish` by the intervals that touch it, and count it when
the next interval leaves a gap. -/
def sweep (start finish : Nat) : List (Nat × Nat) → Nat
  | [] => finish - start
  | interval :: rest =>
    if interval.1 ≤ finish then sweep start (max finish interval.2) rest
    else (finish - start) + sweep interval.1 interval.2 rest

theorem ico_union_of_touching {start finish first last : Nat} (after : start ≤ first)
    (touching : first ≤ finish) :
    Finset.Ico start finish ∪ Finset.Ico first last = Finset.Ico start (max finish last) := by
  ext instant
  rw [mem_union, mem_Ico, mem_Ico, mem_Ico]
  omega

theorem sweep_eq_card (start finish : Nat) (intervals : List (Nat × Nat))
    (sorted : intervals.Pairwise fun first second => first.1 ≤ second.1)
    (after : ∀ interval ∈ intervals, start ≤ interval.1) :
    sweep start finish intervals = (Finset.Ico start finish ∪ covered intervals).card := by
  induction intervals generalizing start finish with
  | nil => simp [sweep, covered]
  | cons interval rest hypothesis =>
    obtain ⟨first, sortedRest⟩ := pairwise_cons.mp sorted
    rw [sweep, covered]
    split
    · rename_i touching
      rw [hypothesis start _ sortedRest fun other member =>
          after other (mem_cons_of_mem _ member),
        ← ico_union_of_touching (after interval mem_cons_self) touching,
        union_assoc]
    · rename_i gap
      have apart : Disjoint (Finset.Ico start finish) (covered (interval :: rest)) :=
        disjoint_covered (forall_mem_cons.mpr ⟨(not_le.mp gap).le, fun other member =>
          (not_le.mp gap).le.trans (first other member)⟩)
      rw [covered] at apart
      rw [hypothesis _ _ sortedRest first, card_union_of_disjoint apart, Nat.card_Ico]

/-- Intervals of which none starts before the one before it ends are as long together as the
instants that they cover. -/
theorem sum_lengths_eq_card (apart : intervals.Pairwise fun first second => first.2 ≤ second.1) :
    (intervals.map fun interval => interval.2 - interval.1).sum = (covered intervals).card := by
  induction intervals with
  | nil => rfl
  | cons interval rest hypothesis =>
    obtain ⟨first, apartRest⟩ := pairwise_cons.mp apart
    rw [List.map_cons, List.sum_cons, hypothesis apartRest, covered,
      Finset.card_union_of_disjoint (disjoint_covered first), Nat.card_Ico]

theorem sum_card_le_card {Item Instant : Type} [DecidableEq Instant]
    (part : Item → Finset Instant) (whole : Finset Instant) (items : List Item)
    (apart : items.Pairwise fun first second => Disjoint (part first) (part second))
    (inside : ∀ item ∈ items, part item ⊆ whole) :
    (items.map fun item => (part item).card).sum ≤ whole.card := by
  induction items generalizing whole with
  | nil => exact Nat.zero_le _
  | cons item rest hypothesis =>
    obtain ⟨first, apartRest⟩ := pairwise_cons.mp apart
    have subset : part item ⊆ whole := inside item mem_cons_self
    have remaining : (rest.map fun item => (part item).card).sum ≤ (whole \ part item).card := by
      refine hypothesis _ apartRest fun other member => ?_
      rw [subset_sdiff]
      exact ⟨inside other (mem_cons_of_mem _ member), (first other member).symm⟩
    calc ((item :: rest).map fun item => (part item).card).sum
        = (part item).card + (rest.map fun item => (part item).card).sum := by simp
      _ ≤ (part item).card + (whole \ part item).card := Nat.add_le_add_left remaining _
      _ = whole.card := by rw [Nat.add_comm, card_sdiff_add_card_eq_card subset]

end Coverage
