/-
This file is about records that are found through their positions in a list.

An index files the position of every record under the keys of the record. A reader collects the
positions of several keys, sorts them and drops repetitions. The records there are in the order of
the list, so what a test selects among them is what it selects in the whole list, provided that
every record that passes the test was filed under one of the keys (`filter_select`).
-/

import EbpfStudio.Library.Table

namespace Positions

open List

variable {Record Key : Type}

def select (records : List Record) (positions : List Nat) : List Record :=
  positions.filterMap fun position => records[position]?

def dedupAdjacent : List Nat → List Nat
  | [] => []
  | [last] => [last]
  | first :: second :: rest =>
    if first = second then dedupAdjacent (second :: rest)
    else first :: dedupAdjacent (second :: rest)

def sortDedup (positions : List Nat) : List Nat :=
  dedupAdjacent (positions.insertionSort (· ≤ ·))

variable {positions : List Nat} {position : Nat}

theorem mem_dedupAdjacent :
    position ∈ dedupAdjacent positions ↔ position ∈ positions := by
  fun_induction dedupAdjacent positions with
  | case1 => rfl
  | case2 => rfl
  | case3 first rest hypothesis =>
    rw [hypothesis, mem_cons, mem_cons, mem_cons, ← or_assoc, or_self]
  | case4 first second rest _ hypothesis =>
    rw [mem_cons, hypothesis]
    exact mem_cons.symm

theorem pairwise_dedupAdjacent (sorted : positions.Pairwise (· ≤ ·)) :
    (dedupAdjacent positions).Pairwise (· < ·) := by
  fun_induction dedupAdjacent positions with
  | case1 => exact List.Pairwise.nil
  | case2 last => exact pairwise_singleton _ _
  | case3 first rest hypothesis => exact hypothesis sorted.of_cons
  | case4 first second rest different hypothesis =>
    refine pairwise_cons.mpr ⟨fun other member => ?_, hypothesis sorted.of_cons⟩
    obtain ⟨below, tail⟩ := pairwise_cons.mp sorted
    have step : first < second := lt_of_le_of_ne (below second mem_cons_self) different
    rcases mem_cons.mp (mem_dedupAdjacent.mp member) with same | later
    · rw [same]
      exact step
    · exact lt_of_lt_of_le step (rel_of_pairwise_cons tail later)

theorem mem_sortDedup :
    position ∈ sortDedup positions ↔ position ∈ positions := by
  rw [sortDedup, mem_dedupAdjacent, mem_insertionSort]

theorem pairwise_sortDedup (positions : List Nat) :
    (sortDedup positions).Pairwise (· < ·) :=
  pairwise_dedupAdjacent (pairwise_insertionSort _ _)

variable (records : List Record)

theorem select_entries (keep : Record × Nat → Bool) :
    select records ((records.zipIdx.filter keep).map (·.2)) =
      (records.zipIdx.filter keep).map (·.1) := by
  unfold select
  rw [filterMap_map, ← filterMap_eq_map]
  refine filterMap_congr fun entry member => ?_
  exact mem_zipIdx_iff_getElem?.mp (mem_of_mem_filter member)

def positionsWhere (keep : Record → Bool) (records : List Record) : List Nat :=
  (records.zipIdx.filter fun entry => keep entry.1).map (·.2)

theorem mem_positionsWhere {keep : Record → Bool} {records : List Record} :
    position ∈ positionsWhere keep records ↔
      ∃ record, records[position]? = some record ∧ keep record = true := by
  unfold positionsWhere
  simp only [mem_map, mem_filter]
  constructor
  · rintro ⟨entry, ⟨listed, passes⟩, here⟩
    exact ⟨entry.1, here ▸ mem_zipIdx_iff_getElem?.mp listed, passes⟩
  · rintro ⟨record, found, passes⟩
    exact ⟨(record, position), ⟨mem_zipIdx_iff_getElem?.mpr found, passes⟩, rfl⟩

theorem select_range :
    select records (List.range records.length) = records := by
  have all := select_entries records fun _ => true
  rwa [filter_true, zipIdx_map_snd, zipIdx_map_fst, ← range_eq_range'] at all

theorem select_eq_filter_range (increasing : positions.Pairwise (· < ·)) :
    select records positions =
      select records ((List.range records.length).filter (· ∈ positions)) := by
  have within : select records positions =
      select records (positions.filter (· < records.length)) := by
    unfold select
    rw [filterMap_filter]
    refine filterMap_congr fun position _ => ?_
    by_cases inside : position < records.length
    · rw [if_pos (decide_eq_true inside)]
    · rw [if_neg (by simpa using inside)]
      exact getElem?_eq_none (not_lt.mp inside)
  have kept := increasing.filter (· < records.length)
  have ranged := (pairwise_lt_range (n := records.length)).filter (· ∈ positions)
  have same : positions.filter (· < records.length) =
      (range records.length).filter (· ∈ positions) := by
    refine kept.eq_of_mem_iff ranged fun position => ?_
    simp only [mem_filter, mem_range, decide_eq_true_eq]
    exact and_comm
  rw [within, same]

section

variable {records : List Record} {positions : List Nat} (increasing : positions.Pairwise (· < ·))
  {keep : Record → Bool}

include increasing

/-- If every record that passes a test stands at one of the increasing positions, the test
keeps the same records there as in the whole list. -/
theorem filter_select
    (covers : ∀ position record, records[position]? = some record → keep record = true →
      position ∈ positions) : (select records positions).filter keep = records.filter keep := by
  have whole : records.filter keep =
      (select records (range records.length)).filter keep := by rw [select_range]
  rw [whole, select_eq_filter_range records increasing]
  unfold select
  rw [filterMap_filter, filter_filterMap, filter_filterMap]
  refine filterMap_congr fun position _ => ?_
  by_cases chosen : position ∈ positions
  · rw [if_pos (decide_eq_true chosen)]
  · rw [if_neg (by simpa using chosen), Option.filter_none]
    refine Eq.symm ?_
    rw [Option.filter_eq_none_iff]
    intro record found passes
    exact chosen (covers position record found passes)

theorem select_eq_filter
    (holds : ∀ position, position ∈ positions ↔
      ∃ record, records[position]? = some record ∧ keep record = true) :
    select records positions = records.filter keep := by
  have covers := filter_select increasing fun position record found passes =>
    (holds position).mpr ⟨record, found, passes⟩
  rw [← covers]
  refine (filter_eq_self.mpr fun record member => ?_).symm
  obtain ⟨position, listed, found⟩ := mem_filterMap.mp member
  obtain ⟨same, foundSame, passes⟩ := (holds position).mp listed
  rw [found] at foundSame
  rw [Option.some.inj foundSame]
  exact passes

end

variable [DecidableEq Key]

def fileRecord (table : Table Key (List Nat)) (keys : List Key) (position : Nat) :
    Table Key (List Nat) :=
  keys.foldl (fun table key => table.alter key [] (· ++ [position])) table

def fileUnder (keys : Record → List Key) (records : List Record) : Table Key (List Nat) :=
  records.zipIdx.foldl (fun table entry => fileRecord table (keys entry.1) entry.2) ∅

def positionsAt (table : Table Key (List Nat)) (key : Key) : List Nat :=
  (table.lookup key).getD []

theorem positionsAt_fileRecord (table : Table Key (List Nat)) (keys : List Key)
    (position : Nat) (key : Key) :
    positionsAt (fileRecord table keys position) key =
      positionsAt table key ++ (keys.filter (· = key)).map fun _ => position := by
  unfold fileRecord
  induction keys generalizing table with
  | nil => simp
  | cons head rest hypothesis =>
    rw [foldl_cons, hypothesis, filter_cons]
    unfold positionsAt
    rw [Table.lookup_alter_eq]
    by_cases same : head = key
    · rw [if_pos same.symm, if_pos (decide_eq_true same), same]
      simp
    · rw [if_neg (Ne.symm same), if_neg (by simpa using same)]

theorem positionsAt_fileUnder (keys : Record → List Key) (records : List Record) (key : Key) :
    positionsAt (fileUnder keys records) key =
      records.zipIdx.flatMap fun entry =>
        ((keys entry.1).filter (· = key)).map fun _ => entry.2 := by
  have general : ∀ (entries : List (Record × Nat)) (table : Table Key (List Nat)),
      positionsAt (entries.foldl (fun table entry => fileRecord table (keys entry.1) entry.2)
          table) key =
        positionsAt table key ++ entries.flatMap fun entry =>
          ((keys entry.1).filter (· = key)).map fun _ => entry.2 := by
    intro entries
    induction entries with
    | nil => simp
    | cons entry rest hypothesis =>
      intro table
      rw [foldl_cons, hypothesis, positionsAt_fileRecord, flatMap_cons,
        append_assoc]
  exact (general records.zipIdx ∅).trans (nil_append _)

theorem mem_positionsAt {keys : Record → List Key} {records : List Record} {key : Key} :
    position ∈ positionsAt (fileUnder keys records) key ↔
      ∃ record, records[position]? = some record ∧ key ∈ keys record := by
  rw [positionsAt_fileUnder]
  simp only [mem_flatMap, mem_map, mem_filter, decide_eq_true_eq]
  constructor
  · rintro ⟨entry, listed, used, ⟨member, same⟩, here⟩
    exact ⟨entry.1, here ▸ mem_zipIdx_iff_getElem?.mp listed, same ▸ member⟩
  · rintro ⟨record, found, member⟩
    exact ⟨(record, position), mem_zipIdx_iff_getElem?.mpr found, key, ⟨member, rfl⟩, rfl⟩

theorem select_positionsAt (keyOf : Record → Option Key) (records : List Record) (key : Key) :
    select records (positionsAt (fileUnder (fun record => (keyOf record).toList) records) key) =
      records.filter fun record => keyOf record = some key := by
  have entries : positionsAt (fileUnder (fun record => (keyOf record).toList) records) key =
      (records.zipIdx.filter fun entry => keyOf entry.1 = some key).map (·.2) := by
    rw [positionsAt_fileUnder]
    induction records.zipIdx with
    | nil => rfl
    | cons entry rest hypothesis =>
      rw [flatMap_cons, hypothesis, filter_cons]
      cases found : keyOf entry.1 with
      | none => simp
      | some other => by_cases same : other = key <;> simp [same]
  rw [entries, select_entries]
  have mapped := filter_map (f := Prod.fst) (p := fun record => keyOf record = some key)
    (l := records.zipIdx)
  rw [zipIdx_map_fst] at mapped
  exact mapped.symm

end Positions
