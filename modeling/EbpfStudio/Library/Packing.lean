/-
This file is about packing items into bins in the order in which they arrive.

The last bin is filled until the next item does not fit, and then a new one is started. This greedy
packing is the best one in order: the items of a group that fits in one bin start at most one new
bin, so there are no more bins than groups (`length_nextFit_le`). Whether some items can be divided
into so many groups is therefore decided by packing them (`fits_iff`).
-/

import Mathlib

namespace Packing

open List

variable {Item : Type} (size : Item → Nat) (limit : Nat)

def load (bin : List Item) : Nat := (bin.map size).sum

theorem load_append (first second : List Item) :
    load size (first ++ second) = load size first + load size second := by
  unfold load
  rw [map_append, sum_append]

def put : List (List Item) → Item → List (List Item)
  | [], item => [[item]]
  | bin :: rest, item =>
    if limit < load size bin + size item then [item] :: bin :: rest
    else (bin ++ [item]) :: rest

def nextFit (items : List Item) : List (List Item) := items.foldl (put size limit) [[]]

/-- The items can be divided, in their order, into so many groups within the limit. -/
def Fits (count : Nat) (items : List Item) : Prop :=
  ∃ groups : List (List Item), groups.flatten = items ∧ groups.length ≤ count ∧
    ∀ group ∈ groups, load size group ≤ limit

variable {size limit} {items bin group : List Item} {rest : List (List Item)}

theorem nextFit_snoc (items : List Item) (item : Item) :
    nextFit size limit (items ++ [item]) = put size limit (nextFit size limit items) item := by
  unfold nextFit
  rw [foldl_append]
  rfl

theorem put_ne_nil (bins : List (List Item)) (item : Item) : put size limit bins item ≠ [] := by
  unfold put
  split
  · exact cons_ne_nil _ _
  · split <;> exact cons_ne_nil _ _

theorem nextFit_ne_nil (items : List Item) : nextFit size limit items ≠ [] := by
  induction items using reverseRecOn with
  | nil => exact cons_ne_nil _ _
  | append_singleton items item _ =>
    rw [nextFit_snoc]
    exact put_ne_nil _ _

theorem flatten_nextFit (items : List Item) :
    (nextFit size limit items).reverse.flatten = items := by
  induction items using reverseRecOn with
  | nil => rfl
  | append_singleton items item hypothesis =>
    rw [nextFit_snoc]
    cases bins : nextFit size limit items with
    | nil => exact absurd bins (nextFit_ne_nil items)
    | cons bin rest =>
      rw [bins] at hypothesis
      unfold put
      dsimp only
      split
      · rw [reverse_cons, flatten_append, hypothesis]
        simp
      · rw [reverse_cons, flatten_append, ← hypothesis, reverse_cons,
          flatten_append]
        simp

theorem load_nextFit (small : ∀ item ∈ items, size item ≤ limit) :
    ∀ bin ∈ nextFit size limit items, load size bin ≤ limit := by
  induction items using reverseRecOn with
  | nil =>
    intro bin member
    rw [mem_singleton.mp member]
    exact Nat.zero_le _
  | append_singleton items item hypothesis =>
    have before := hypothesis fun other member =>
      small other (mem_append_left _ member)
    have own := small item mem_concat_self
    rw [nextFit_snoc]
    cases bins : nextFit size limit items with
    | nil => exact absurd bins (nextFit_ne_nil items)
    | cons bin rest =>
      rw [bins] at before
      unfold put
      dsimp only
      intro other member
      split at member
      · rcases mem_cons.mp member with rfl | old
        · simpa [load] using own
        · exact before other old
      · rename_i fits
        rcases mem_cons.mp member with rfl | old
        · rw [load_append]
          simpa [load] using not_lt.mp fits
        · exact before other (mem_cons_of_mem _ old)

theorem load_newest_le (bins : nextFit size limit items = bin :: rest) :
    load size bin ≤ load size items := by
  have whole := @flatten_nextFit _ size limit items
  rw [bins, reverse_cons, flatten_append, flatten_singleton] at whole
  rw [← whole, load_append]
  exact Nat.le_add_left _ _

theorem length_put_le (bins : List (List Item)) (item : Item) :
    bins.length ≤ (put size limit bins item).length := by
  unfold put
  split
  · exact Nat.zero_le _
  · split
    · exact Nat.le_succ _
    · exact le_rfl

theorem length_nextFit_mono (items more : List Item) :
    (nextFit size limit items).length ≤ (nextFit size limit (items ++ more)).length := by
  induction more using reverseRecOn with
  | nil => rw [append_nil]
  | append_singleton more item hypothesis =>
    rw [← append_assoc, nextFit_snoc]
    exact hypothesis.trans (length_put_le _ _)

/-- While the items of a group within the limit arrive, they all go into the bin that is open,
or one bin is started and holds items of the group only. -/
theorem foldl_put_group (small : load size group ≤ limit) :
    group.foldl (put size limit) (bin :: rest) = (bin ++ group) :: rest ∨
      ∃ filled last, group.foldl (put size limit) (bin :: rest) = last :: filled :: rest ∧
        load size last ≤ load size group := by
  induction group using reverseRecOn with
  | nil =>
    rw [append_nil]
    exact .inl rfl
  | append_singleton group item hypothesis =>
    have total := load_append size group [item]
    rw [foldl_append, foldl_cons, foldl_nil]
    rcases hypothesis (by omega) with same | ⟨filled, last, started, light⟩
    · rw [same, put]
      split
      · exact .inr ⟨bin ++ group, [item], rfl, by omega⟩
      · exact .inl (by rw [append_assoc])
    · have single : load size [item] = size item := by simp [load]
      rw [started, put, if_neg (by omega)]
      exact .inr ⟨filled, last ++ [item], rfl, by rw [load_append]; omega⟩

theorem length_foldl_put_group {bins : List (List Item)} (some_ : bins ≠ [])
    (small : load size group ≤ limit) :
    (group.foldl (put size limit) bins).length ≤ bins.length + 1 := by
  cases bins with
  | nil => exact absurd rfl some_
  | cons bin rest =>
    rcases @foldl_put_group _ _ _ bin _ rest small with same | ⟨filled, last, started, -⟩
    · rw [same]
      exact Nat.le_succ _
    · rw [started]
      exact le_rfl

theorem nextFit_group (small : load size group ≤ limit) :
    nextFit size limit group = [group] := by
  induction group using reverseRecOn with
  | nil => rfl
  | append_singleton group item hypothesis =>
    have total := load_append size group [item]
    have single : load size [item] = size item := by simp [load]
    rw [nextFit_snoc, hypothesis (by omega), put, if_neg (by omega)]

theorem length_nextFit_le (first : List Item) (others : List (List Item))
    (small : ∀ group ∈ first :: others, load size group ≤ limit) :
    (nextFit size limit (first :: others).flatten).length ≤ others.length + 1 := by
  induction others using reverseRecOn with
  | nil =>
    rw [flatten_singleton, nextFit_group (small first mem_cons_self)]
    exact le_rfl
  | append_singleton others group hypothesis =>
    have before := hypothesis fun other member => small other (by
      rw [← cons_append]
      exact mem_append_left _ member)
    have own := small group (by simp)
    rw [← cons_append, flatten_append, flatten_singleton, nextFit,
      foldl_append, length_append, length_singleton]
    exact (length_foldl_put_group (nextFit_ne_nil _) own).trans (Nat.succ_le_succ before)

theorem fits_iff {count : Nat} (several : 1 ≤ count)
    (small : ∀ item ∈ items, size item ≤ limit) :
    Fits size limit count items ↔ (nextFit size limit items).length ≤ count := by
  constructor
  · rintro ⟨groups, rfl, few, within⟩
    cases groups with
    | nil => exact several
    | cons first others => exact (length_nextFit_le first others within).trans few
  · intro few
    refine ⟨(nextFit size limit items).reverse, flatten_nextFit items, ?_, fun bin member => ?_⟩
    · rw [length_reverse]
      exact few
    · exact load_nextFit small bin (mem_reverse.mp member)

theorem fits_one_iff : Fits size limit 1 items ↔ load size items ≤ limit := by
  constructor
  · rintro ⟨groups, rfl, few, within⟩
    cases groups with
    | nil => exact Nat.zero_le _
    | cons group others =>
      have none : others = [] := eq_nil_of_length_eq_zero (by
        rw [length_cons] at few
        omega)
      rw [none, flatten_singleton]
      exact within group mem_cons_self
  · intro light
    refine ⟨[items], flatten_singleton, le_rfl, fun group member => ?_⟩
    rw [mem_singleton.mp member]
    exact light

end Packing
