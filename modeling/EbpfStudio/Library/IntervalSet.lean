/-
This file is about sets of instants kept as half-open intervals.

`Separated` intervals are in order with gaps between them, and such a list is determined by the
instants it covers (`Separated.ext`). Joining an interval with those it touches keeps the list
separated and adds what the interval covers, and so does cutting all of them to a range.
-/

import Mathlib

namespace IntervalSet

open List

variable {Instant : Type} [LinearOrder Instant]

def Covers (intervals : List (Instant × Instant)) (instant : Instant) : Prop :=
  ∃ interval ∈ intervals, interval.1 ≤ instant ∧ instant < interval.2

structure Separated (intervals : List (Instant × Instant)) : Prop where
  proper : ∀ interval ∈ intervals, interval.1 < interval.2
  apart : intervals.Pairwise fun first second => first.2 < second.1

variable {first second : List (Instant × Instant)} {instant : Instant}

theorem covers_append :
    Covers (first ++ second) instant ↔ Covers first instant ∨ Covers second instant := by
  simp only [Covers, mem_append, or_and_right, exists_or]

theorem covers_cons {interval : Instant × Instant} {rest : List (Instant × Instant)} :
    Covers (interval :: rest) instant ↔
      interval.1 ≤ instant ∧ instant < interval.2 ∨ Covers rest instant := by
  simp only [Covers, mem_cons, exists_eq_or_imp]

theorem separated_nil : Separated ([] : List (Instant × Instant)) :=
  ⟨fun _ member => absurd member not_mem_nil, List.Pairwise.nil⟩

theorem Separated.sublist {intervals fewer : List (Instant × Instant)}
    (separated : Separated intervals) (sublist : fewer.Sublist intervals) : Separated fewer :=
  ⟨fun interval member => separated.proper interval (sublist.subset member),
    separated.apart.sublist sublist⟩

theorem Separated.append (firsts : Separated first) (seconds : Separated second)
    (apart : ∀ before ∈ first, ∀ after ∈ second, before.2 < after.1) :
    Separated (first ++ second) where
  proper interval member :=
    (mem_append.mp member).elim (firsts.proper interval) (seconds.proper interval)
  apart := pairwise_append.mpr ⟨firsts.apart, seconds.apart, apart⟩

/-- Join an interval that ends at `finish` with the following ones as long as they touch it:
the end of what it becomes, and the intervals that are left. -/
def absorb (finish : Instant) :
    List (Instant × Instant) → Instant × List (Instant × Instant)
  | [] => (finish, [])
  | interval :: rest =>
    if interval.1 ≤ finish then absorb (max finish interval.2) rest
    else (finish, interval :: rest)

section Absorb

variable {start finish : Instant} {intervals : List (Instant × Instant)}

theorem separated_absorb (proper : start < finish) (separated : Separated intervals) :
    Separated ((start, (absorb finish intervals).1) :: (absorb finish intervals).2) := by
  induction intervals generalizing finish with
  | nil => exact ⟨by simpa [absorb] using proper, pairwise_singleton _ _⟩
  | cons interval rest hypothesis =>
    have others := separated.sublist (sublist_cons_self interval rest)
    rw [absorb]
    split
    · exact hypothesis (lt_of_lt_of_le proper (le_max_left _ _)) others
    · rename_i gap
      refine ⟨fun other member => ?_, pairwise_cons.mpr ⟨fun other member => ?_,
        separated.apart⟩⟩
      · rcases mem_cons.mp member with rfl | later
        · exact proper
        · exact separated.proper other later
      · rcases mem_cons.mp member with rfl | later
        · exact not_le.mp gap
        · calc finish
            _ < interval.1 := not_le.mp gap
            _ < interval.2 := separated.proper interval mem_cons_self
            _ < other.1 := rel_of_pairwise_cons separated.apart later

theorem covers_absorb (after : ∀ interval ∈ intervals, start ≤ interval.1)
    (proper : start ≤ finish) :
    Covers ((start, (absorb finish intervals).1) :: (absorb finish intervals).2) instant ↔
      start ≤ instant ∧ instant < finish ∨ Covers intervals instant := by
  induction intervals generalizing finish with
  | nil => simp [absorb, Covers]
  | cons interval rest hypothesis =>
    rw [absorb]
    split
    · rename_i touching
      have others := hypothesis
        (fun other member => after other (mem_cons_of_mem _ member))
        (proper.trans (le_max_left finish interval.2))
      have starts := after interval mem_cons_self
      rw [others, covers_cons, ← or_assoc, lt_max_iff]
      refine or_congr_left ⟨?_, ?_⟩
      · rintro ⟨first, before | before⟩
        · exact .inl ⟨first, before⟩
        · rcases lt_or_ge instant finish with early | late
          · exact .inl ⟨first, early⟩
          · exact .inr ⟨touching.trans late, before⟩
      · rintro (⟨first, before⟩ | ⟨first, before⟩)
        · exact ⟨first, .inl before⟩
        · exact ⟨starts.trans first, .inr before⟩
    · exact covers_cons

end Absorb

section Canonical

variable {interval : Instant × Instant} {first second rest : List (Instant × Instant)}

section

variable (separated : Separated (interval :: rest))

include separated

theorem Separated.lt_of_covers_tail (covered : Covers rest instant) : interval.2 < instant := by
  obtain ⟨other, member, begins, -⟩ := covered
  exact (rel_of_pairwise_cons separated.apart member).trans_le begins

theorem Separated.covers_tail :
    Covers rest instant ↔ Covers (interval :: rest) instant ∧ interval.2 ≤ instant := by
  rw [covers_cons]
  refine ⟨fun covered => ⟨.inr covered, (separated.lt_of_covers_tail covered).le⟩, ?_⟩
  rintro ⟨inside | covered, late⟩
  · exact absurd inside.2 (not_lt.mpr late)
  · exact covered

theorem Separated.le_of_covers (covered : Covers (interval :: rest) instant) :
    interval.1 ≤ instant := by
  rcases covers_cons.mp covered with inside | later
  · exact inside.1
  · exact ((separated.proper interval mem_cons_self).trans
      (separated.lt_of_covers_tail later)).le

theorem Separated.covers_start : Covers (interval :: rest) interval.1 :=
  covers_cons.mpr (.inl ⟨le_rfl, separated.proper interval mem_cons_self⟩)

end

theorem Separated.end_le {other : Instant × Instant} {others : List (Instant × Instant)}
    (separated : Separated (interval :: rest)) (starts : interval.1 = other.1)
    (same : ∀ instant, Covers (interval :: rest) instant ↔ Covers (other :: others) instant) :
    other.2 ≤ interval.2 := by
  refine not_lt.mp fun shorter => ?_
  have inside : other.1 ≤ interval.2 ∧ interval.2 < other.2 :=
    ⟨starts ▸ (separated.proper interval mem_cons_self).le, shorter⟩
  rcases covers_cons.mp ((same _).mpr (covers_cons.mpr (.inl inside))) with own | later
  · exact lt_irrefl _ own.2
  · exact lt_irrefl _ (separated.lt_of_covers_tail later)

theorem Separated.ext (firsts : Separated first) (seconds : Separated second)
    (same : ∀ instant, Covers first instant ↔ Covers second instant) : first = second := by
  induction first generalizing second with
  | nil =>
    cases second with
    | nil => rfl
    | cons other others => exact absurd ((same _).mpr seconds.covers_start) (by simp [Covers])
  | cons interval rest hypothesis =>
    cases second with
    | nil => exact absurd ((same _).mp firsts.covers_start) (by simp [Covers])
    | cons other others =>
      have starts : interval.1 = other.1 :=
        le_antisymm (firsts.le_of_covers ((same _).mpr seconds.covers_start))
          (seconds.le_of_covers ((same _).mp firsts.covers_start))
      have ends : interval.2 = other.2 :=
        le_antisymm (seconds.end_le starts.symm fun instant => (same instant).symm)
          (firsts.end_le starts same)
      have tails : rest = others := by
        refine hypothesis (firsts.sublist (sublist_cons_self _ _))
          (seconds.sublist (sublist_cons_self _ _)) fun instant => ?_
        rw [firsts.covers_tail, seconds.covers_tail, same, ends]
      rw [Prod.ext starts ends, tails]

end Canonical

section Parts

variable {intervals : List (Instant × Instant)} {start finish : Instant}

def partBetween (start finish : Instant) (interval : Instant × Instant) :
    Option (Instant × Instant) :=
  let part := (max interval.1 start, min interval.2 finish)
  if part.1 < part.2 then some part else none

theorem partBetween_eq_some {interval part : Instant × Instant} :
    partBetween start finish interval = some part ↔
      part = (max interval.1 start, min interval.2 finish) ∧ part.1 < part.2 := by
  unfold partBetween
  dsimp only
  split <;> grind

theorem covers_parts :
    Covers (intervals.filterMap (partBetween start finish)) instant ↔
      Covers intervals instant ∧ start ≤ instant ∧ instant < finish := by
  constructor
  · rintro ⟨part, member, begins, ends⟩
    obtain ⟨interval, listed, made⟩ := mem_filterMap.mp member
    obtain ⟨rfl, -⟩ := partBetween_eq_some.mp made
    obtain ⟨beginsOwn, late⟩ := max_le_iff.mp begins
    obtain ⟨endsOwn, early⟩ := lt_min_iff.mp ends
    exact ⟨⟨interval, listed, beginsOwn, endsOwn⟩, late, early⟩
  · rintro ⟨⟨interval, listed, begins, ends⟩, late, early⟩
    have inside := And.intro (max_le begins late) (lt_min ends early)
    exact ⟨_, mem_filterMap.mpr
      ⟨interval, listed, partBetween_eq_some.mpr ⟨rfl, inside.1.trans_lt inside.2⟩⟩, inside⟩

theorem Separated.parts (separated : Separated intervals) :
    Separated (intervals.filterMap (partBetween start finish)) where
  proper part member := by
    obtain ⟨interval, -, made⟩ := mem_filterMap.mp member
    exact (partBetween_eq_some.mp made).2
  apart := by
    refine List.Pairwise.filterMap _ (fun first second before part made other makes => ?_)
      separated.apart
    rw [(partBetween_eq_some.mp made).1, (partBetween_eq_some.mp makes).1]
    exact ((min_le_left _ _).trans_lt before).trans_le (le_max_left _ _)

end Parts

end IntervalSet
