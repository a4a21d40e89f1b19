/-
This file models the interval arithmetic of the analysis: the length of a union of intervals, the
gaps that a union leaves between two bounds, and the list of busy intervals that grows by one
interval at a time.

The loops go through intervals that are sorted by their starts. The length of a union is the number
of instants that the intervals cover, by the sweep of `Library/Coverage`, which fits in a word since
all instants do.
-/

import EbpfStudio.Library.Coverage
import EbpfStudio.Protocol.Rolling

namespace EbpfStudio

open Coverage

def pairLe (first second : U64 × U64) : Prop :=
  first.1 < second.1 ∨ first.1 = second.1 ∧ first.2 ≤ second.2

instance : DecidableRel pairLe := fun first second =>
  inferInstanceAs (Decidable (first.1 < second.1 ∨ first.1 = second.1 ∧ first.2 ≤ second.2))

instance : Std.Total pairLe where
  total first second := by
    simp only [pairLe, Fin.lt_def, Fin.le_def, Fin.ext_iff]
    omega

instance : IsTrans (U64 × U64) pairLe where
  trans first second third := by
    simp only [pairLe, Fin.lt_def, Fin.le_def, Fin.ext_iff]
    omega

theorem pairLe.starts {first second : U64 × U64} (order : pairLe first second) :
    first.1.val ≤ second.1.val := by
  rcases order with before | ⟨same, -⟩
  · exact le_of_lt (Fin.lt_def.mp before)
  · rw [same]

def unionLoop (start finish total : U64) : List (U64 × U64) → U64
  | [] => total.saturatingAdd (finish.saturatingSub start)
  | (nextStart, nextEnd) :: rest =>
    if nextStart ≤ finish then unionLoop start (max finish nextEnd) total rest
    else unionLoop nextStart nextEnd (total.saturatingAdd (finish.saturatingSub start)) rest

def unionOfSorted : List (U64 × U64) → U64
  | [] => 0
  | (start, finish) :: rest => unionLoop start finish 0 rest

def unionDuration (intervals : List (U64 × U64)) : U64 :=
  unionOfSorted
    ((intervals.filter fun interval => interval.1 ≤ interval.2).insertionSort pairLe)

inductive UnaccountedReason where
  | probeUnavailable | eventLost | ambiguous | clockInvalid | vendorInternal | unknown
  deriving DecidableEq

structure UnaccountedInterval where
  startTsNs : U64
  endTsNs : U64
  reason : UnaccountedReason
  deriving DecidableEq

def uncoveredLoop (boundsEnd cursor : U64) : List (U64 × U64) → List UnaccountedInterval
  | [] => if cursor < boundsEnd then [⟨cursor, boundsEnd, .unknown⟩] else []
  | (start, finish) :: rest =>
    if cursor < start then
      ⟨cursor, start, .unknown⟩ :: uncoveredLoop boundsEnd (max cursor finish) rest
    else uncoveredLoop boundsEnd (max cursor finish) rest

def uncoveredIntervals (boundsStart boundsEnd : U64) (intervals : List (U64 × U64)) :
    List UnaccountedInterval :=
  let values := (intervals.map fun interval =>
    (max interval.1 boundsStart, min interval.2 boundsEnd)).filter fun interval =>
      interval.1 < interval.2
  uncoveredLoop boundsEnd boundsStart (values.insertionSort pairLe)

/-- Absorb the intervals that start before the growing interval ends; the rest is kept. -/
def absorb (start finish : U64) : List (U64 × U64) → (U64 × U64) × List (U64 × U64)
  | [] => ((start, finish), [])
  | interval :: rest =>
    if interval.1 ≤ finish then absorb (min start interval.1) (max finish interval.2) rest
    else ((start, finish), interval :: rest)

def mergeInterval (intervals : List (U64 × U64)) (interval : U64 × U64) : List (U64 × U64) :=
  if interval.2 < interval.1 then intervals
  else
    let before := intervals.takeWhile fun current => current.2 < interval.1
    let merged := absorb interval.1 interval.2 (intervals.drop before.length)
    before ++ merged.1 :: merged.2

def instants (intervals : List (U64 × U64)) : List (Nat × Nat) :=
  intervals.map fun interval => (interval.1.val, interval.2.val)

variable {intervals : List (U64 × U64)}

theorem mem_covered_instants {instant : Nat} :
    instant ∈ covered (instants intervals) ↔
      ∃ interval ∈ intervals, interval.1.val ≤ instant ∧ instant < interval.2.val := by
  simp [mem_covered, instants]

theorem unionLoop_val (start finish total : U64) (intervals : List (U64 × U64)) :
    (unionLoop start finish total intervals).val =
      min (total + sweep start finish (instants intervals)) (2 ^ 64 - 1) := by
  induction intervals generalizing start finish total with
  | nil => rfl
  | cons interval rest hypothesis =>
    show (if interval.1 ≤ finish then _ else _ : U64).val = _
    rw [instants, List.map_cons, sweep, ← instants]
    by_cases touching : interval.1 ≤ finish
    · rw [if_pos touching, if_pos (Fin.le_def.mp touching), hypothesis,
        Fin.coe_max]
    · rw [if_neg touching, if_neg fun order => touching (Fin.le_def.mpr order),
        hypothesis, Word.saturatingAdd_val, Word.saturatingSub_val]
      dsimp only
      omega

theorem covered_instants_card_le (intervals : List (U64 × U64)) :
    (covered (instants intervals)).card ≤ 2 ^ 64 - 1 := by
  refine card_covered_le fun interval member => ?_
  obtain ⟨source, -, rfl⟩ := List.mem_map.mp member
  exact Nat.le_sub_one_of_lt source.2.isLt

theorem unionOfSorted_val (sorted : intervals.Pairwise pairLe) :
    (unionOfSorted intervals).val = (covered (instants intervals)).card := by
  cases intervals with
  | nil => rfl
  | cons first rest =>
    obtain ⟨least, sortedRest⟩ := List.pairwise_cons.mp sorted
    have counted : sweep first.1 first.2 (instants rest) =
        (covered (instants (first :: rest))).card := by
      refine sweep_eq_card _ _ _ ?_ ?_
      · exact List.pairwise_map.mpr (sortedRest.imp pairLe.starts)
      · intro interval member
        obtain ⟨source, listed, rfl⟩ := List.mem_map.mp member
        exact (least source listed).starts
    have bounded := covered_instants_card_le (first :: rest)
    rw [unionOfSorted, unionLoop_val, counted]
    simpa using bounded

theorem unionDuration_val (intervals : List (U64 × U64)) :
    (unionDuration intervals).val = (covered (instants intervals)).card := by
  have filtered : (instants intervals).filter (fun interval => interval.1 ≤ interval.2) =
      instants (intervals.filter fun interval => interval.1 ≤ interval.2) := by
    unfold instants
    rw [List.filter_map]
    rfl
  rw [unionDuration, unionOfSorted_val (List.pairwise_insertionSort pairLe _)]
  refine congrArg Finset.card (covered_eq_of_perm_filter ?_)
  rw [filtered]
  exact (List.perm_insertionSort pairLe _).map _

end EbpfStudio
