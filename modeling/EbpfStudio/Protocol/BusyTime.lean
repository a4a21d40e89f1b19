/-
This file proves what the list of busy intervals is after any insertions.

The list is sorted by starts, and a new interval absorbs the ones that it touches. This keeps the
intervals spaced and adds exactly the instants of the new one, so the lengths add up to the number
of instants that were busy.
-/

import EbpfStudio.Protocol.Intervals

namespace EbpfStudio

open Coverage List Finset

/-- In increasing order, none running backwards, and with gaps between them. An interval may
have no length. -/
structure Spaced (intervals : List (U64 × U64)) : Prop where
  forward : ∀ interval ∈ intervals, interval.1 ≤ interval.2
  apart : intervals.Pairwise fun first second => first.2 < second.1

theorem spaced_nil : Spaced [] := ⟨fun _ member => absurd member not_mem_nil, .nil⟩

theorem Spaced.sublist {intervals fewer : List (U64 × U64)} (spaced : Spaced intervals)
    (sublist : fewer.Sublist intervals) : Spaced fewer :=
  ⟨fun interval member => spaced.forward interval (sublist.subset member),
    spaced.apart.sublist sublist⟩

theorem Spaced.append {first second : List (U64 × U64)} (firsts : Spaced first)
    (seconds : Spaced second) (apart : ∀ before ∈ first, ∀ after ∈ second, before.2 < after.1) :
    Spaced (first ++ second) where
  forward interval member :=
    (mem_append.mp member).elim (firsts.forward interval) (seconds.forward interval)
  apart := pairwise_append.mpr ⟨firsts.apart, seconds.apart, apart⟩

theorem Spaced.ends_of_dropWhile {intervals : List (U64 × U64)} (spaced : Spaced intervals)
    (start : U64) :
    ∀ interval ∈ intervals.dropWhile fun current => current.2 < start, start ≤ interval.2 := by
  induction intervals with
  | nil => exact fun _ member => absurd member not_mem_nil
  | cons first rest hypothesis =>
    rw [dropWhile_cons]
    split
    · exact hypothesis (spaced.sublist (sublist_cons_self first rest))
    · rename_i late
      have reaches : start ≤ first.2 := by simpa using late
      intro interval member
      rcases mem_cons.mp member with rfl | later
      · exact reaches
      · have beyond : first.2 < interval.1 := rel_of_pairwise_cons spaced.apart later
        exact reaches.trans (beyond.le.trans (spaced.forward interval member))

section Absorb

variable {start finish : U64} {intervals : List (U64 × U64)}

theorem absorb_sublist (start finish : U64) (intervals : List (U64 × U64)) :
    (absorb start finish intervals).2.Sublist intervals := by
  induction intervals generalizing start finish with
  | nil => exact .slnil
  | cons interval rest hypothesis =>
    rw [absorb]
    split
    · exact (hypothesis _ _).cons interval
    · exact Sublist.refl _

theorem lt_absorb_start {bound : U64} (before : bound < start)
    (others : ∀ interval ∈ intervals, bound < interval.1) :
    bound < (absorb start finish intervals).1.1 := by
  induction intervals generalizing start finish with
  | nil => exact before
  | cons interval rest hypothesis =>
    rw [absorb]
    split
    · exact hypothesis (lt_min before (others interval mem_cons_self))
        fun other member => others other (mem_cons_of_mem _ member)
    · exact before

theorem spaced_absorb (forward : start ≤ finish) (spaced : Spaced intervals) :
    Spaced ((absorb start finish intervals).1 :: (absorb start finish intervals).2) := by
  induction intervals generalizing start finish with
  | nil =>
    refine ⟨fun interval member => ?_, List.pairwise_singleton _ _⟩
    rw [List.mem_singleton.mp member]
    exact forward
  | cons interval rest hypothesis =>
    rw [absorb]
    split
    · exact hypothesis ((min_le_left _ _).trans (forward.trans (le_max_left _ _)))
        (spaced.sublist (sublist_cons_self interval rest))
    · rename_i gap
      refine ⟨fun other member => ?_,
        pairwise_cons.mpr ⟨fun other member => ?_, spaced.apart⟩⟩
      · rcases mem_cons.mp member with rfl | later
        · exact forward
        · exact spaced.forward other later
      · rcases mem_cons.mp member with rfl | later
        · exact not_le.mp gap
        · calc finish
            _ < interval.1 := not_le.mp gap
            _ ≤ interval.2 := spaced.forward interval mem_cons_self
            _ < other.1 := rel_of_pairwise_cons spaced.apart later

theorem ico_union_ico_of_touching {first last low high : Nat} (touches : low ≤ last)
    (reaches : first ≤ high) :
    Finset.Ico (min first low) (max last high) = Finset.Ico first last ∪ Finset.Ico low high := by
  ext instant
  rw [mem_union, mem_Ico, mem_Ico, mem_Ico]
  omega

theorem covered_absorb (reaches : ∀ interval ∈ intervals, start ≤ interval.2) :
    covered (instants
        ((absorb start finish intervals).1 :: (absorb start finish intervals).2)) =
      Finset.Ico start.val finish.val ∪ covered (instants intervals) := by
  induction intervals generalizing start finish with
  | nil => rfl
  | cons interval rest hypothesis =>
    rw [absorb]
    split
    · rename_i touching
      have joined := @hypothesis (min start interval.1) (max finish interval.2)
        fun other member =>
          (min_le_left _ _).trans (reaches other (mem_cons_of_mem _ member))
      rw [joined, Fin.coe_min, Fin.coe_max,
        ico_union_ico_of_touching touching (reaches interval mem_cons_self),
        union_assoc]
      rfl
    · rfl

end Absorb

section Merge

variable {intervals : List (U64 × U64)}

theorem mergeInterval_of_le {interval : U64 × U64} (forward : interval.1 ≤ interval.2)
    (intervals : List (U64 × U64)) :
    mergeInterval intervals interval =
      (intervals.takeWhile fun current => current.2 < interval.1) ++
        (absorb interval.1 interval.2
          (intervals.dropWhile fun current => current.2 < interval.1)).1 ::
        (absorb interval.1 interval.2
          (intervals.dropWhile fun current => current.2 < interval.1)).2 := by
  have after : intervals.drop
      (intervals.takeWhile fun current => current.2 < interval.1).length =
      intervals.dropWhile fun current => current.2 < interval.1 := by
    have parts := @drop_left _ (intervals.takeWhile fun current => current.2 < interval.1)
      (intervals.dropWhile fun current => current.2 < interval.1)
    rwa [takeWhile_append_dropWhile] at parts
  unfold mergeInterval
  rw [if_neg (not_lt.mpr forward)]
  dsimp only
  rw [after]

theorem Spaced.mergeInterval (spaced : Spaced intervals) (interval : U64 × U64) :
    Spaced (EbpfStudio.mergeInterval intervals interval) := by
  by_cases forward : interval.1 ≤ interval.2
  · rw [mergeInterval_of_le forward]
    have before := spaced.sublist
      (takeWhile_sublist (fun current => decide (current.2 < interval.1)))
    have after := spaced.sublist
      (dropWhile_sublist (fun current => decide (current.2 < interval.1)))
    have split := spaced.apart
    rw [← takeWhile_append_dropWhile (p := fun current => decide (current.2 < interval.1))
      (l := intervals), pairwise_append] at split
    refine before.append (spaced_absorb forward after) fun first early second late => ?_
    have ends : first.2 < interval.1 := by simpa using mem_takeWhile_imp early
    rcases mem_cons.mp late with rfl | later
    · exact lt_absorb_start ends (split.2.2 first early)
    · exact split.2.2 first early second ((absorb_sublist _ _ _).subset later)
  · unfold EbpfStudio.mergeInterval
    rw [if_pos (not_le.mp forward)]
    exact spaced

theorem Spaced.covered_mergeInterval (spaced : Spaced intervals) (interval : U64 × U64) :
    covered (instants (EbpfStudio.mergeInterval intervals interval)) =
      covered (instants intervals) ∪ Finset.Ico interval.1.val interval.2.val := by
  by_cases forward : interval.1 ≤ interval.2
  · rw [mergeInterval_of_le forward, instants, map_append, covered_append, ← instants,
      ← instants, covered_absorb (spaced.ends_of_dropWhile interval.1)]
    conv_rhs => rw [← takeWhile_append_dropWhile (l := intervals)
      (p := fun current => decide (current.2 < interval.1))]
    rw [instants, instants, instants, map_append, covered_append, union_assoc,
      union_comm (Finset.Ico _ _)]
  · unfold EbpfStudio.mergeInterval
    rw [if_pos (not_le.mp forward),
      Finset.Ico_eq_empty_of_le (Fin.le_def.mp (not_le.mp forward).le), union_empty]

theorem Spaced.sum_lengths (spaced : Spaced intervals) :
    (intervals.map fun interval => (interval.2.saturatingSub interval.1).val).sum =
      (unionDuration intervals).val := by
  have apart : (instants intervals).Pairwise fun first second => first.2 ≤ second.1 :=
    List.pairwise_map.mpr (spaced.apart.imp fun order => Nat.le_of_lt order)
  rw [unionDuration_val, ← sum_lengths_eq_card apart, instants, List.map_map]
  rfl

end Merge

end EbpfStudio
