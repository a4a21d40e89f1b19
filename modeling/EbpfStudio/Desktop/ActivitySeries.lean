/-
This file models the levels of resolution in which a series of points is drawn.

A level takes the level before in chunks and keeps of each chunk its first, last, lowest and highest
point. What this keeps (`Coarser`) is kept by all levels together, the ends and the extremes. What
is shown is the part of one level that lies in the visible range.
-/

import EbpfStudio.Library.Word

namespace EbpfStudio

open List

structure PlotPoint (X Y : Type) where
  x : X
  y : Y

section

variable {X Y : Type} [LinearOrder Y]

/-- The first, the last, the first lowest and the last highest place of a chunk. -/
def chunkPositions (chunk : List (PlotPoint X Y)) : List Nat :=
  [0, chunk.length - 1, chunk.findIdx fun point => chunk.all (point.y ≤ ·.y),
    chunk.length - 1 - chunk.reverse.findIdx fun point => chunk.all (·.y ≤ point.y)]

/-- The positions are sorted and without repetition: the points of the chunk at one of them. -/
def pickPoints (chunk : List (PlotPoint X Y)) : List (PlotPoint X Y) :=
  (chunk.zipIdx.filter fun entry => entry.2 ∈ chunkPositions chunk).map (·.1)

def coarsen : List (PlotPoint X Y) → List (PlotPoint X Y)
  | [] => []
  | point :: rest => pickPoints ((point :: rest).take 16) ++ coarsen ((point :: rest).drop 16)
termination_by level => level.length
decreasing_by rw [length_drop, length_cons]; omega

theorem length_pickPoints (chunk : List (PlotPoint X Y)) : (pickPoints chunk).length ≤ 4 := by
  unfold pickPoints
  rw [length_map]
  have kept : (chunk.zipIdx.filter fun entry => entry.2 ∈ chunkPositions chunk).map (·.2) =
      (range chunk.length).filter (· ∈ chunkPositions chunk) := by
    rw [range_eq_range', ← zipIdx_map_snd 0 chunk, filter_map]
    rfl
  have unique := (@nodup_range chunk.length).filter (· ∈ chunkPositions chunk)
  have few := (Nodup.subperm unique fun place member =>
    of_decide_eq_true (mem_filter.mp member).2).length_le
  rwa [← kept, length_map] at few

variable (level : List (PlotPoint X Y))

theorem length_coarsen :
    (coarsen level).length ≤ 4 * ((level.length + 15) / 16) := by
  induction level using coarsen.induct with
  | case1 => rw [coarsen]; exact Nat.zero_le _
  | case2 point rest hypothesis =>
    rw [coarsen, length_append]
    have picked := length_pickPoints ((point :: rest).take 16)
    rw [length_drop, length_cons] at hypothesis
    rw [length_cons]
    omega

def levelsFrom (level : List (PlotPoint X Y)) : List (List (PlotPoint X Y)) :=
  if 256 < level.length then level :: levelsFrom (coarsen level) else [level]
termination_by level.length
decreasing_by
  have bound := length_coarsen level
  omega

/-! ### Levels -/

/-- What a coarser level keeps of a finer one: its ends, and for each point one as low and one as
high. -/
structure Coarser (fine coarse : List (PlotPoint X Y)) : Prop where
  sublist : coarse <+ fine
  first : coarse.head? = fine.head?
  last : coarse.getLast? = fine.getLast?
  between : ∀ point ∈ fine, ∃ low ∈ coarse, ∃ high ∈ coarse, low.y ≤ point.y ∧ point.y ≤ high.y

theorem mem_pickPoints {chunk : List (PlotPoint X Y)} {place : Nat} (inside : place < chunk.length)
    (chosen : place ∈ chunkPositions chunk) : chunk[place] ∈ pickPoints chunk := by
  refine mem_map.mpr ⟨(chunk[place], place), mem_filter.mpr ⟨?_, decide_eq_true chosen⟩, rfl⟩
  rw [mk_mem_zipIdx_iff_getElem?, getElem?_eq_getElem inside]

theorem coarser_pickPoints {chunk : List (PlotPoint X Y)} (nonempty : chunk ≠ []) :
    Coarser chunk (pickPoints chunk) where
  sublist := by
    have part : pickPoints chunk <+ chunk.zipIdx.map Prod.fst := filter_sublist.map Prod.fst
    rwa [zipIdx_map_fst] at part
  first := by
    obtain ⟨point, rest, rfl⟩ := exists_cons_of_ne_nil nonempty
    have kept : 0 ∈ chunkPositions (point :: rest) := mem_cons_self
    simp [pickPoints, zipIdx_cons, kept]
  last := by
    obtain ⟨rest, point, rfl⟩ := (eq_nil_or_concat' chunk).resolve_left nonempty
    have kept : rest.length ∈ chunkPositions (rest ++ [point]) := by simp [chunkPositions]
    simp [pickPoints, zipIdx_append, filter_append, kept]
  between point member := by
    obtain ⟨least, lowest⟩ := Option.ne_none_iff_exists'.mp
      (mt (argmin_eq_none (f := PlotPoint.y)).mp nonempty)
    obtain ⟨greatest, highest⟩ := Option.ne_none_iff_exists'.mp
      (mt (argmax_eq_none (f := PlotPoint.y)).mp nonempty)
    have low : chunk.findIdx (fun point => chunk.all (point.y ≤ ·.y)) < chunk.length :=
      findIdx_lt_length_of_exists ⟨least, argmin_mem lowest, all_eq_true.mpr fun other inside =>
        decide_eq_true (le_of_mem_argmin inside lowest)⟩
    have high : chunk.reverse.findIdx (fun point => chunk.all (·.y ≤ point.y)) <
        chunk.reverse.length :=
      findIdx_lt_length_of_exists ⟨greatest, mem_reverse.mpr (argmax_mem highest),
        all_eq_true.mpr fun other inside => decide_eq_true (le_of_mem_argmax inside highest)⟩
    have below := all_eq_true.mp (findIdx_getElem (w := low)) point member
    have above := all_eq_true.mp (findIdx_getElem (w := high)) point member
    rw [getElem_reverse] at above
    rw [length_reverse] at high
    exact ⟨_, mem_pickPoints low (by simp [chunkPositions]), _,
      mem_pickPoints (by omega) (by simp [chunkPositions]), of_decide_eq_true below,
      of_decide_eq_true above⟩

theorem Coarser.append {first second firstCoarse secondCoarse : List (PlotPoint X Y)}
    (one : Coarser first firstCoarse) (two : Coarser second secondCoarse) :
    Coarser (first ++ second) (firstCoarse ++ secondCoarse) where
  sublist := one.sublist.append two.sublist
  first := by rw [head?_append, head?_append, one.first, two.first]
  last := by rw [getLast?_append, getLast?_append, one.last, two.last]
  between point member := by
    have here := one.between point
    have there := two.between point
    grind

theorem Coarser.refl : Coarser level level :=
  ⟨Sublist.refl _, rfl, rfl, fun point member => ⟨point, member, point, member, le_rfl, le_rfl⟩⟩

theorem Coarser.trans {fine middle coarse : List (PlotPoint X Y)} (one : Coarser fine middle)
    (two : Coarser middle coarse) : Coarser fine coarse where
  sublist := two.sublist.trans one.sublist
  first := two.first.trans one.first
  last := two.last.trans one.last
  between point member := by
    obtain ⟨low, lowIn, high, highIn, below, above⟩ := one.between point member
    obtain ⟨lower, lowerIn, _, _, least, _⟩ := two.between low lowIn
    obtain ⟨_, _, higher, higherIn, _, most⟩ := two.between high highIn
    exact ⟨lower, lowerIn, higher, higherIn, least.trans below, above.trans most⟩

theorem coarser_coarsen : Coarser level (coarsen level) := by
  induction level using coarsen.induct with
  | case1 =>
    rw [coarsen]
    exact Coarser.refl []
  | case2 point rest hypothesis =>
    have both := (@coarser_pickPoints _ _ _ ((point :: rest).take 16) (by simp)).append hypothesis
    rwa [take_append_drop, ← coarsen] at both

theorem levelsFrom_spec (points : List (PlotPoint X Y)) :
    (levelsFrom points).IsChain Coarser ∧ (levelsFrom points).head? = some points ∧
      (∀ level ∈ levelsFrom points, Coarser points level) ∧
      ∀ level ∈ (levelsFrom points).getLast?, level.length ≤ 256 := by
  induction points using levelsFrom.induct with
  | case1 level large hypothesis =>
    obtain ⟨chain, first, all, small⟩ := hypothesis
    obtain ⟨rest, more⟩ := head?_eq_some_iff.mp first
    have next := coarser_coarsen level
    have further := fun other member => next.trans (all other member)
    rw [levelsFrom, if_pos large]
    rw [more] at chain small further ⊢
    exact ⟨isChain_cons_cons.mpr ⟨next, chain⟩, rfl,
      forall_mem_cons.mpr ⟨Coarser.refl level, further⟩, by rwa [getLast?_cons_cons]⟩
  | case2 level small =>
    rw [levelsFrom, if_neg small]
    exact ⟨List.IsChain.singleton _, rfl, forall_mem_singleton.mpr (Coarser.refl level), by grind⟩

end

/-! ### Visible points -/

section

variable {X Y : Type} [LinearOrder X]

def partitionPoint {Item : Type} (before : Item → Bool) (items : List Item) : Nat :=
  items.findIdx (!before ·)

def visibleOf (level : List (PlotPoint X Y)) (x : X × X) : List (PlotPoint X Y) :=
  let start := partitionPoint (fun point => point.x < x.1) level - 1
  let stop := min (partitionPoint (fun point => point.x ≤ x.2) level + 1) level.length
  (level.take stop).drop (min start stop)

def visible (x : X × X) (columns : Nat) : List (List (PlotPoint X Y)) → List (PlotPoint X Y)
  | [] => []
  | level :: rest =>
    let points := visibleOf level x
    if points.length ≤ min (max columns 1 * 4) (2 ^ 64 - 1) ∨ rest = [] then points
    else visible x columns rest

theorem mem_visibleOf {level : List (PlotPoint X Y)} {x : X × X}
    (sorted : level.Pairwise (·.x ≤ ·.x)) {point : PlotPoint X Y} (member : point ∈ level)
    (left : x.1 ≤ point.x) (right : point.x ≤ x.2) : point ∈ visibleOf level x := by
  obtain ⟨index, bound, rfl⟩ := getElem_of_mem member
  have after : partitionPoint (fun point => point.x < x.1) level ≤ index := by
    by_contra early
    have before := not_of_lt_findIdx (not_le.mp early)
    grind
  have ahead : index < partitionPoint (fun point => point.x ≤ x.2) level := by
    by_contra behind
    have reached := (not_lt.mp behind).trans_lt bound
    have outside : (!decide ((level.get ⟨_, reached⟩).x ≤ x.2)) = true :=
      findIdx_getElem (w := reached)
    have ordered := pairwise_iff_getElem.mp sorted _ index reached bound
    grind
  unfold visibleOf
  refine mem_iff_getElem.mpr ⟨index - min (partitionPoint (fun point => point.x < x.1) level - 1)
    (min (partitionPoint (fun point => point.x ≤ x.2) level + 1) level.length), ?_, ?_⟩
  · rw [length_drop, length_take]
    omega
  · rw [getElem_drop, getElem_take]
    congr 1
    omega

/-- The points that are shown are a part of one level, within the budget of the columns or of the
coarsest level. -/
theorem visible_spec (x : X × X) (columns : Nat) {levels : List (List (PlotPoint X Y))}
    (nonempty : levels ≠ []) (coarsest : ∀ level ∈ levels.getLast?, level.length ≤ 256) :
    ∃ level ∈ levels, visible x columns levels = visibleOf level x ∧
      (visibleOf level x).length ≤ max (4 * max columns 1) 256 := by
  have part (level : List (PlotPoint X Y)) : (visibleOf level x).length ≤ level.length :=
    ((drop_sublist _ _).trans (take_sublist _ _)).length_le
  fun_induction visible x columns levels with grind

end

/-- Each level is a part of the one before with its ends, all of them keep the extremes, and what is
shown of one level has all its points in the range. -/
theorem pyramid_keeps_extremes {X Y : Type} [LinearOrder X] [LinearOrder Y]
    (points : List (PlotPoint X Y)) :
    (levelsFrom points).head? = some points ∧
    (levelsFrom points).IsChain (fun fine coarse =>
      coarse <+ fine ∧ coarse.head? = fine.head? ∧ coarse.getLast? = fine.getLast?) ∧
    (∀ level ∈ levelsFrom points, ∀ point ∈ points,
      ((∀ other ∈ points, point.y ≤ other.y) → ∃ kept ∈ level, kept.y = point.y) ∧
      ((∀ other ∈ points, other.y ≤ point.y) → ∃ kept ∈ level, kept.y = point.y)) ∧
    (points.Pairwise (·.x ≤ ·.x) → ∀ x columns, ∃ level ∈ levelsFrom points,
      visible x columns (levelsFrom points) <:+: level ∧
      (visible x columns (levelsFrom points)).length ≤ max (4 * max columns 1) 256 ∧
      ∀ point ∈ level, x.1 ≤ point.x → point.x ≤ x.2 →
        point ∈ visible x columns (levelsFrom points)) := by
  obtain ⟨chain, first, all, small⟩ := levelsFrom_spec points
  refine ⟨first, chain.imp fun _ _ coarser => ⟨coarser.sublist, coarser.first, coarser.last⟩,
    fun level member point inside => ⟨fun lowest => ?_, fun highest => ?_⟩,
    fun sorted x columns => ?_⟩
  · obtain ⟨low, kept, _, _, below, _⟩ := (all level member).between point inside
    exact ⟨low, kept, below.antisymm (lowest low ((all level member).sublist.subset kept))⟩
  · obtain ⟨_, _, high, kept, _, above⟩ := (all level member).between point inside
    exact ⟨high, kept, (highest high ((all level member).sublist.subset kept)).antisymm above⟩
  · obtain ⟨level, member, same, bound⟩ :=
      visible_spec x columns (ne_nil_of_mem (mem_of_mem_head? first)) small
    have part : visibleOf level x <:+: level :=
      (drop_suffix _ _).isInfix.trans <| IsPrefix.isInfix <| take_prefix _ _
    rw [same]
    exact ⟨level, member, part, bound,
      fun point inside => mem_visibleOf (sorted.sublist (all level member).sublist) inside⟩

end EbpfStudio
