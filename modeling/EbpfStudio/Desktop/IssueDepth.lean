/-
This file proves that the depth of an issue is the number of requests in flight.

The rows of a device are in the order of their starts, and no row ends before it starts. The depth
of a row is the number of rows up to it less the number of ends, which are sorted on their own, that
are not after its start. What has ended by then must have started before (`Sweep`), so the
difference counts the rows that are open.
-/

import EbpfStudio.Desktop.Projection
import EbpfStudio.Library.Tally

namespace EbpfStudio.Projection

open List Table

abbrev Row := U64 × U64 × U64

def startsBy (first second : Row) : Prop :=
  first.1 < second.1 ∨ first.1 = second.1 ∧ first.2.1 ≤ second.2.1

instance : DecidableRel startsBy := fun _ _ => by
  unfold startsBy
  infer_instance

/-- The intervals of a device that have started when a row starts and end after that. -/
def openRows (intervals : Table U64 (U64 × U64 × U64)) (device : U64) (row : Row) : Nat :=
  intervals.toPairs.countP fun entry => entry.2.1 = device ∧
    startsBy (entry.2.2.1, entry.1, entry.2.2.2) row ∧ row.1 < entry.2.2.2

def completedBefore (rows : List Row) (start : U64) : Nat :=
  (((rows.map (·.2.2)).insertionSort (· ≤ ·)).takeWhile (· ≤ start)).length

structure Sweep (rows : List Row) : Prop where
  sorted : rows.Pairwise startsBy
  distinct : rows.Pairwise fun first second => first.2.1 ≠ second.2.1
  proper : ∀ row ∈ rows, row.1 < row.2.2

theorem proper_issueIntervals (completions : List BlockObservation) {id : U64} {row : Row}
    (found : (issueIntervals completions).lookup id = some row) : row.2.1 < row.2.2 := by
  revert id row
  refine foldlRecOn completions _ (motive := fun table : Table U64 Row =>
    ∀ {id row}, table.lookup id = some row → row.2.1 < row.2.2) ?_ ?_
  · intro id row found
    cases found
  intro table proper observation _ id row found
  split at found
  · split at found
    · rename_i start _ _ ordered
      have late := of_decide_eq_true (Bool.and_eq_true_iff.mp ordered).2
      rw [lookup_alter_eq] at found
      split at found
      · cases found
        cases known : table.lookup _ with
        | none => exact lt_max_of_lt_left late
        | some old => exact lt_max_of_lt_left (proper known)
      · exact proper found
    · exact proper found
  · exact proper found

section Rows

variable (intervals : Table U64 (U64 × U64 × U64)) (device : U64)

theorem perm_deviceRows : (deviceRows intervals device).Perm
    ((intervals.toPairs.filter fun entry => entry.2.1 = device).map fun entry =>
      (entry.2.2.1, entry.1, entry.2.2.2)) :=
  perm_insertionSort startsBy _

variable {intervals device}

theorem mem_deviceRows {row : Row} : row ∈ deviceRows intervals device ↔
    intervals.lookup row.2.1 = some (device, row.1, row.2.2) := by
  rw [(perm_deviceRows intervals device).mem_iff, mem_map]
  constructor
  · rintro ⟨entry, listed, rfl⟩
    obtain ⟨member, rfl⟩ := mem_filter.mp listed |>.imp_right of_decide_eq_true
    exact mem_toPairs.mp member
  · intro found
    exact ⟨(row.2.1, device, row.1, row.2.2), mem_filter.mpr
      ⟨mem_toPairs.mpr found, decide_eq_true rfl⟩, rfl⟩

theorem sweep_deviceRows
    (proper : ∀ {id row}, intervals.lookup id = some row → row.2.1 < row.2.2) :
    Sweep (deviceRows intervals device) where
  sorted := by
    have total : Std.Total startsBy := ⟨fun first second => by unfold startsBy; grind⟩
    have transitive : IsTrans Row startsBy := ⟨fun first second third => by
      unfold startsBy
      grind⟩
    exact pairwise_insertionSort startsBy _
  distinct := by
    have keys : ((deviceRows intervals device).map (·.2.1)).Nodup := by
      rw [((perm_deviceRows intervals device).map _).nodup_iff, map_map]
      exact intervals.keys_toPairs_nodup.sublist (filter_sublist.map _)
    exact pairwise_map.mp keys
  proper row member := proper (mem_deviceRows.mp member)

theorem countP_deviceRows (row : Row) : (deviceRows intervals device).countP
    (fun other => startsBy other row ∧ row.1 < other.2.2) = openRows intervals device row := by
  rw [(perm_deviceRows intervals device).countP_eq, countP_map, countP_filter]
  exact countP_congr fun entry _ => by simp [and_comm]

end Rows

section Depth

variable {before after : List Row} {row : Row} (sweep : Sweep (before ++ row :: after))

include sweep

theorem Sweep.completedBefore_eq : completedBefore (before ++ row :: after) row.1 =
    before.countP fun other => other.2.2 ≤ row.1 := by
  have later : after.countP (fun other => decide (other.2.2 ≤ row.1)) = 0 := by
    refine countP_eq_zero.mpr fun other member ended => ?_
    have order := rel_of_pairwise_cons (pairwise_append.mp sweep.sorted).2.1 member
    have proper := sweep.proper other (mem_append_right _ (mem_cons_of_mem _ member))
    have starts : row.1 ≤ other.1 := order.elim (·.le) (·.1.le)
    exact absurd (starts.trans_lt proper) (not_lt.mpr (of_decide_eq_true ended))
  have own : ¬ row.2.2 ≤ row.1 :=
    not_le.mpr (sweep.proper row (mem_append_right _ mem_cons_self))
  unfold completedBefore
  rw [Tally.length_takeWhile_eq_countP (pairwise_insertionSort (· ≤ ·) _)
    fun first second ordered below => decide_eq_true (ordered.trans (of_decide_eq_true below)),
    (perm_insertionSort (· ≤ ·) _).countP_eq, countP_map, countP_append]
  show _ + (row :: after).countP (fun other => decide (other.2.2 ≤ row.1)) = _
  rw [countP_cons_of_neg (by simpa using own), later]
  rfl

theorem Sweep.countP_open : (before ++ row :: after).countP
    (fun other => startsBy other row ∧ row.1 < other.2.2) =
      before.countP (fun other => ¬ other.2.2 ≤ row.1) + 1 := by
  have split := pairwise_append.mp sweep.sorted
  have later : after.countP (fun other => startsBy other row ∧ row.1 < other.2.2) = 0 := by
    refine countP_eq_zero.mpr fun other member early => ?_
    have order := rel_of_pairwise_cons split.2.1 member
    have different := rel_of_pairwise_cons
      (pairwise_append.mp sweep.distinct).2.1 member
    have back := (of_decide_eq_true early).1
    unfold startsBy at order back
    grind
  have own : startsBy row row ∧ row.1 < row.2.2 :=
    ⟨Or.inr ⟨rfl, le_rfl⟩, sweep.proper row (mem_append_right _ mem_cons_self)⟩
  rw [countP_append, countP_cons_of_pos (by simpa using own), later]
  refine congrArg (· + 1) (countP_congr fun other member => ?_)
  simp [split.2.2 other member row mem_cons_self]

theorem Sweep.depth_eq :
    completedBefore (before ++ row :: after) row.1 ≤ before.length ∧
      before.length + 1 - completedBefore (before ++ row :: after) row.1 =
        (before ++ row :: after).countP fun other => startsBy other row ∧ row.1 < other.2.2 := by
  have all := @length_eq_countP_add_countP _ (fun other : Row => decide (other.2.2 ≤ row.1))
    before
  rw [sweep.completedBefore_eq, sweep.countP_open]
  simp only [decide_eq_true_eq] at all
  omega

end Depth

theorem Sweep.depth_at {intervals : Table U64 (U64 × U64 × U64)} {device : U64}
    (sweep : Sweep (deviceRows intervals device)) {place : Nat} {row : Row}
    (found : (deviceRows intervals device)[place]? = some row) :
    completedBefore (deviceRows intervals device) row.1 ≤ place ∧
      place + 1 - completedBefore (deviceRows intervals device) row.1 =
        openRows intervals device row := by
  obtain ⟨within, same⟩ := List.getElem?_eq_some_iff.mp found
  have split : deviceRows intervals device = (deviceRows intervals device).take place ++
      row :: (deviceRows intervals device).drop (place + 1) := by
    rw [← same, ← drop_eq_getElem_cons within, take_append_drop]
  rw [← countP_deviceRows]
  rw [split] at sweep
  have depth := sweep.depth_eq
  rw [← split, length_take_of_le within.le] at depth
  exact depth

def depths (rows : List Row) : List (U64 × Nat) :=
  rows.zipIdx.map fun entry => (entry.1.2.1, entry.2 + 1 - completedBefore rows entry.1.1)

def setDepth (timing : Table U64 DetailTiming) (entry : U64 × Nat) : Table U64 DetailTiming :=
  timing.alter entry.1 .unknown fun detail => { detail with issueDepth := some entry.2 }

def depthAt (timing : Table U64 DetailTiming) (id : U64) : Option Nat :=
  (timing.lookup id).bind (·.issueDepth)

theorem depthAt_setDepth (timing : Table U64 DetailTiming) (entry : U64 × Nat) (id : U64) :
    depthAt (setDepth timing entry) id =
      if id = entry.1 then some entry.2 else depthAt timing id := by
  unfold depthAt setDepth
  rw [lookup_alter_eq]
  split <;> rfl

theorem depthAt_foldl {entries : List (U64 × Nat)} {id : U64} {depth : Nat}
    (agree : ∀ entry ∈ entries, entry.1 = id → entry.2 = depth) (timing : Table U64 DetailTiming)
    (known : (∃ entry ∈ entries, entry.1 = id) ∨ depthAt timing id = some depth) :
    depthAt (entries.foldl setDepth timing) id = some depth := by
  induction entries generalizing timing with
  | nil => simpa using known
  | cons entry rest hypothesis =>
    refine hypothesis (fun other member => agree other (mem_cons_of_mem _ member))
      _ ?_
    rw [depthAt_setDepth]
    by_cases own : id = entry.1
    · rw [if_pos own, agree entry mem_cons_self own.symm]
      exact Or.inr rfl
    · rw [if_neg own]
      refine known.imp_left ?_
      rintro ⟨other, member, same⟩
      rcases mem_cons.mp member with rfl | later
      · exact absurd same.symm own
      · exact ⟨other, later, same⟩

theorem timing_withAnalysis (projection : Projection) (analysis : BlockAnalysis) :
    (projection.withAnalysis analysis).timing =
      ((((issueIntervals analysis.completions).toPairs.map (·.2.1)).dedup).flatMap fun device =>
        depths (deviceRows (issueIntervals analysis.completions) device)).foldl setDepth
          projection.timing := by
  rw [foldl_flatMap]
  unfold depths
  simp only [foldl_map]
  rfl

/-- For every analysis, the depth of a matched issue is the number of the matched intervals of its
device that have started when it starts, in the order of times and ids, and end later. -/
theorem issue_depth_is_naive (projection : Projection) (analysis : BlockAnalysis)
    {id device start finish : U64}
    (matched : (issueIntervals analysis.completions).lookup id = some (device, start, finish)) :
    let intervals := issueIntervals analysis.completions
    let depth := openRows intervals device (start, id, finish)
    ((projection.withAnalysis analysis).timing.lookup id).bind (·.issueDepth) = some depth ∧
      1 ≤ depth ∧
      ∀ place row, (deviceRows intervals device)[place]? = some row →
        completedBefore (deviceRows intervals device) row.1 ≤ place + 1 := by
  intro intervals depth
  have sweep : ∀ device, Sweep (deviceRows intervals device) := fun device =>
    sweep_deviceRows (proper_issueIntervals analysis.completions)
  have member : (start, id, finish) ∈ deviceRows intervals device := mem_deviceRows.mpr matched
  obtain ⟨place, found⟩ := mem_iff_getElem?.mp member
  refine ⟨?_, ?_, fun place row found => ((sweep device).depth_at found).1.trans place.le_succ⟩
  · show depthAt _ id = _
    rw [timing_withAnalysis]
    refine depthAt_foldl (fun entry listed same => ?_) _ (Or.inl ?_)
    · obtain ⟨other, -, swept⟩ := mem_flatMap.mp listed
      obtain ⟨⟨row, index⟩, zipped, rfl⟩ := mem_map.mp swept
      have placed := mem_zipIdx_iff_getElem?.mp zipped
      have known := mem_deviceRows.mp (mem_of_getElem? placed)
      rw [show row.2.1 = id from same, matched] at known
      cases row
      cases known
      cases same
      exact ((sweep device).depth_at placed).2
    · refine ⟨_, mem_flatMap.mpr ⟨device, mem_dedup.mpr ?_, mem_map.mpr
        ⟨((start, id, finish), place), mem_zipIdx_iff_getElem?.mpr found, rfl⟩⟩, rfl⟩
      exact mem_map.mpr ⟨(id, device, start, finish), mem_toPairs.mpr matched, rfl⟩
  · obtain ⟨few, counted⟩ := (sweep device).depth_at found
    show 1 ≤ openRows intervals device (start, id, finish)
    rw [← counted]
    exact Nat.sub_pos_of_lt (Nat.lt_succ_of_le few)

def timedCompletion (issue start finish : U64) : BlockObservation where
  completionRecord := 100
  timestampNs := finish
  deviceEncoded := 2048
  sector := 0
  bytes := 4096
  rwbs := "R"
  error := some 0
  clock := 0
  issueCandidates := [issue]
  issueTimestampNs := some start
  issuerTid := none
  issuerComm := none
  deviceLatencyNs := none
  queueLatencyNs := none
  timingConfidence := "probable"
  reason := ""

theorem issue_depth_of_two :
    let analysis : BlockAnalysis :=
      { completions := [timedCompletion 1 10 30, timedCompletion 2 20 40] }
    (((new {}).withAnalysis analysis).timing.lookup 2).bind (·.issueDepth) =
        some (openRows (issueIntervals analysis.completions) 2048 (20, 2, 40)) ∧
      openRows (issueIntervals analysis.completions) 2048 (20, 2, 40) = 2 :=
  ⟨(issue_depth_is_naive (new {}) _ (by decide +kernel)).1, by decide +kernel⟩

end EbpfStudio.Projection
