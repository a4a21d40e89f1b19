/-
This file models the tables of heavy hitters that the agent keeps while it captures.

A table has room for a number of keys. When a table is full, a new key replaces the entry with the
least latency if it has more itself, and starts from its own observation. So an entry counts a part
of what was observed of its key (`Bounded`), and all of it as long as the keys have room
(`Complete`).
-/

import EbpfStudio.Library.BoundedTable
import EbpfStudio.Library.Run
import EbpfStudio.Protocol.Event

namespace EbpfStudio

open Run List Nat Word Table

/-! ### The bounded table -/

structure TopObservation where
  key : String
  bytes : U64
  latencyNs : U64
  confidence : Option EdgeConfidence
  deriving DecidableEq

/-- What a table has of a key. -/
structure TopEntry where
  count : U64 := 0
  bytes : U64 := 0
  cumulativeLatencyNs : U64 := 0
  maxLatencyNs : U64 := 0
  confidence : Option EdgeConfidence := none
  deriving DecidableEq

def TopEntry.add (entry : TopEntry) (observed : TopObservation) : TopEntry where
  count := entry.count.saturatingAdd 1
  bytes := entry.bytes.saturatingAdd observed.bytes.val
  cumulativeLatencyNs := entry.cumulativeLatencyNs.saturatingAdd observed.latencyNs.val
  maxLatencyNs := max entry.maxLatencyNs observed.latencyNs
  confidence := observed.confidence.or entry.confidence

/-- A table of keys. -/
structure BoundedTop where
  capacity : U64
  entries : Table String TopEntry := ∅
  evictedKeys : U64 := 0
  totalMetric : U64 := 0

namespace BoundedTop

def isFull (top : BoundedTop) (key : String) : Bool :=
  !top.entries.containsKey key && top.entries.size == top.capacity.val

def enter (entries : Table String TopEntry) (observed : TopObservation) :
    Table String TopEntry :=
  entries.alter observed.key {} (·.add observed)

/-- An observation, with the order in which the map yields its entries at that time. -/
abbrev Step := TopObservation × List (String × TopEntry)

/-- Count an observation. -/
def observe (top : BoundedTop) (step : Step) : BoundedTop :=
  let counted := { top with totalMetric := top.totalMetric.saturatingAdd step.1.latencyNs.val }
  if top.isFull step.1.key then
    let refused := { counted with evictedKeys := top.evictedKeys.saturatingAdd 1 }
    match step.2.argmin (·.2.cumulativeLatencyNs) with
    | some (candidateKey, candidate) =>
      if candidate.cumulativeLatencyNs < step.1.latencyNs then
        { refused with entries := enter (top.entries.erase candidateKey) step.1 }
      else refused
    | none => refused
  else { counted with entries := enter top.entries step.1 }

def Yields (top : BoundedTop) (step : Step) : Prop := step.2.Perm top.entries.toPairs

end BoundedTop

/-! ### The snapshot -/

structure HeavyHitterEntry extends TopEntry where
  key : String
  deriving DecidableEq

inductive HeavyHitterDimension where
  | process | user | file | device | operation | stage | origin
  deriving DecidableEq

inductive HeavyHitterMetric where
  | count | bytes | cumulativeLatency | maximumLatency | p99Bucket
  deriving DecidableEq

structure HeavyHitterSnapshot where
  epoch : U64
  dimension : HeavyHitterDimension
  metric : HeavyHitterMetric
  candidateCapacity : U32
  evictedKeys : U64
  coveredMetric : U64
  totalMetric : U64
  entries : List HeavyHitterEntry

def HeavyHitterEntry.rank (entry : HeavyHitterEntry) : U64ᵒᵈ ×ₗ String :=
  toLex (OrderDual.toDual entry.cumulativeLatencyNs, entry.key)

def HeavyHitterEntry.ranksBefore (first second : HeavyHitterEntry) : Prop :=
  first.rank ≤ second.rank

instance : DecidableRel HeavyHitterEntry.ranksBefore := fun first second =>
  inferInstanceAs (Decidable (first.rank ≤ second.rank))

instance : IsTrans HeavyHitterEntry HeavyHitterEntry.ranksBefore :=
  ⟨fun _ _ _ before after => le_trans before after⟩

instance : Std.Total HeavyHitterEntry.ranksBefore :=
  ⟨fun first second => le_total first.rank second.rank⟩

namespace BoundedTop

/-- The entries in the order of the report. -/
def ranking (top : BoundedTop) : List HeavyHitterEntry :=
  (top.entries.toPairs.map fun entry => ⟨entry.2, entry.1⟩).insertionSort
    HeavyHitterEntry.ranksBefore

def snapshot (top : BoundedTop) (epoch : U64) (dimension : HeavyHitterDimension) :
    HeavyHitterSnapshot where
  epoch := epoch
  dimension := dimension
  metric := .cumulativeLatency
  candidateCapacity := Word.ofNat 32 top.capacity.val
  evictedKeys := top.evictedKeys
  coveredMetric :=
    Word.ofNat 64 ((top.ranking.take 20).map (·.cumulativeLatencyNs.val)).sum
  totalMetric := top.totalMetric
  entries := top.ranking.take 20

end BoundedTop

/-! ### The truth about a key -/

def ownObservations (key : String) (observations : List TopObservation) : List TopObservation :=
  observations.filter (·.key = key)

def totalBytes (observations : List TopObservation) : Nat :=
  (observations.map (·.bytes.val)).sum

def totalLatency (observations : List TopObservation) : Nat :=
  (observations.map (·.latencyNs.val)).sum

def maxLatency (observations : List TopObservation) : Nat :=
  observations.foldl (fun most observed => max most observed.latencyNs.val) 0

def lastConfidence (observations : List TopObservation) : Option EdgeConfidence :=
  (observations.filterMap (·.confidence)).getLast?

namespace TopEntry

structure AtMost (observations : List TopObservation) (entry : TopEntry) : Prop where
  count : entry.count.val ≤ observations.length
  bytes : entry.bytes.val ≤ totalBytes observations
  latency : entry.cumulativeLatencyNs.val ≤ totalLatency observations
  longest : entry.maxLatencyNs.val ≤ maxLatency observations

structure Exactly (observations : List TopObservation) (entry : TopEntry) : Prop where
  count : entry.count.val = observations.length
  bytes : entry.bytes.val = totalBytes observations
  latency : entry.cumulativeLatencyNs.val = totalLatency observations
  longest : entry.maxLatencyNs.val = maxLatency observations
  confidence : entry.confidence = lastConfidence observations

end TopEntry

section Truth

variable {observations : List TopObservation} {entry : TopEntry} {observed : TopObservation}

section

variable (observations : List TopObservation) (observed : TopObservation)

theorem totalBytes_snoc :
    totalBytes (observations ++ [observed]) = totalBytes observations + observed.bytes.val := by
  unfold totalBytes
  rw [map_append, List.sum_append, map_singleton, sum_singleton]

theorem totalLatency_snoc :
    totalLatency (observations ++ [observed]) =
      totalLatency observations + observed.latencyNs.val := by
  unfold totalLatency
  rw [map_append, List.sum_append, map_singleton, sum_singleton]

theorem maxLatency_snoc :
    maxLatency (observations ++ [observed]) =
      max (maxLatency observations) observed.latencyNs.val :=
  foldl_append

theorem lastConfidence_snoc :
    lastConfidence (observations ++ [observed]) =
      observed.confidence.or (lastConfidence observations) := by
  unfold lastConfidence
  rw [filterMap_snoc]
  cases observed.confidence with
  | none => rw [Option.toList_none, append_nil, Option.none_or]
  | some confidence => rw [Option.toList_some, getLast?_concat, Option.some_or]

end

theorem ownObservations_snoc (key : String) (observations : List TopObservation)
    (observed : TopObservation) :
    ownObservations key (observations ++ [observed]) =
      if observed.key = key then ownObservations key observations ++ [observed]
      else ownObservations key observations := by
  unfold ownObservations
  rw [filter_append, filter_singleton]
  split <;> simp_all

theorem sublist_ownObservations (key : String) (observations : List TopObservation) :
    (ownObservations key observations).Sublist observations :=
  filter_sublist

variable {fewer : List TopObservation}

theorem totalBytes_le_of_sublist (among : fewer.Sublist observations) :
    totalBytes fewer ≤ totalBytes observations :=
  (among.map _).sum_le_sum fun _ _ => zero_le _

theorem totalLatency_le_of_sublist (among : fewer.Sublist observations) :
    totalLatency fewer ≤ totalLatency observations :=
  (among.map _).sum_le_sum fun _ _ => zero_le _

namespace TopEntry

theorem AtMost.add (atMost : AtMost observations entry) :
    AtMost (observations ++ [observed]) (entry.add observed) where
  count := by
    have count := atMost.count
    show (entry.count.saturatingAdd 1).val ≤ _
    rw [saturatingAdd_val, length_append, length_singleton]
    omega
  bytes := by
    have bytes := atMost.bytes
    show (entry.bytes.saturatingAdd observed.bytes.val).val ≤ _
    rw [saturatingAdd_val, totalBytes_snoc]
    omega
  latency := by
    have latency := atMost.latency
    show (entry.cumulativeLatencyNs.saturatingAdd observed.latencyNs.val).val ≤ _
    rw [saturatingAdd_val, totalLatency_snoc]
    omega
  longest := by
    show (max entry.maxLatencyNs observed.latencyNs).val ≤ _
    rw [Fin.coe_max, maxLatency_snoc]
    exact max_le_max_right _ atMost.longest

theorem AtMost.later (atMost : AtMost observations entry) :
    AtMost (observations ++ [observed]) entry where
  count := atMost.count.trans (sublist_append_left _ _).length_le
  bytes := atMost.bytes.trans (totalBytes_le_of_sublist (sublist_append_left _ _))
  latency := atMost.latency.trans (totalLatency_le_of_sublist (sublist_append_left _ _))
  longest := by
    rw [maxLatency_snoc]
    exact atMost.longest.trans (le_max_left _ _)

theorem exactly_nil : Exactly [] {} := ⟨rfl, rfl, rfl, rfl, rfl⟩

theorem Exactly.add (exactly : Exactly observations entry)
    (count : observations.length + 1 < 2 ^ 64)
    (bytes : totalBytes (observations ++ [observed]) < 2 ^ 64)
    (latency : totalLatency (observations ++ [observed]) < 2 ^ 64) :
    Exactly (observations ++ [observed]) (entry.add observed) where
  count := by
    show (entry.count.saturatingAdd 1).val = _
    rw [saturatingAdd_of_lt _ _ (exactly.count ▸ count), exactly.count, length_append,
      length_singleton]
  bytes := by
    rw [totalBytes_snoc, ← exactly.bytes] at bytes
    show (entry.bytes.saturatingAdd observed.bytes.val).val = _
    rw [saturatingAdd_of_lt _ _ bytes, totalBytes_snoc, exactly.bytes]
  latency := by
    rw [totalLatency_snoc, ← exactly.latency] at latency
    show (entry.cumulativeLatencyNs.saturatingAdd observed.latencyNs.val).val = _
    rw [saturatingAdd_of_lt _ _ latency, totalLatency_snoc, exactly.latency]
  longest := by
    show (max entry.maxLatencyNs observed.latencyNs).val = _
    rw [Fin.coe_max, maxLatency_snoc, exactly.longest]
  confidence := by
    show observed.confidence.or entry.confidence = _
    rw [lastConfidence_snoc, exactly.confidence]

end TopEntry

end Truth

/-! ### One observation -/

namespace BoundedTop

variable (top : BoundedTop) (step : Step)

theorem observe_cases :
    (top.isFull step.1.key = false ∧
        (top.observe step).entries = enter top.entries step.1 ∧
        (top.observe step).evictedKeys = top.evictedKeys) ∨
      (top.isFull step.1.key = true ∧ (∃ victim ∈ step.2,
        (top.observe step).entries = enter (top.entries.erase victim.1) step.1)) ∨
      (top.isFull step.1.key = true ∧ (top.observe step).entries = top.entries) := by
  unfold observe
  cases full : top.isFull step.1.key with
  | false => exact .inl ⟨rfl, rfl, rfl⟩
  | true =>
    refine .inr ?_
    rw [if_pos rfl]
    cases least : step.2.argmin (·.2.cumulativeLatencyNs) with
    | none => exact .inr ⟨rfl, rfl⟩
    | some victim =>
      dsimp only
      split
      · exact .inl ⟨rfl, victim, argmin_mem least, rfl⟩
      · exact .inr ⟨rfl, rfl⟩

theorem observe_capacity :
    (top.observe step).capacity = top.capacity := by
  unfold observe
  split
  · split
    · split <;> rfl
    · rfl
  · rfl

theorem observe_totalMetric :
    (top.observe step).totalMetric =
      top.totalMetric.saturatingAdd step.1.latencyNs.val := by
  unfold observe
  split
  · split
    · split <;> rfl
    · rfl
  · rfl

section Entries

variable {observations : List TopObservation} {entries : Table String TopEntry}

theorem lookup_enter (entries : Table String TopEntry) (observed : TopObservation)
    (key : String) :
    (enter entries observed).lookup key =
      if key = observed.key then some (((entries.lookup key).getD {}).add observed)
      else entries.lookup key := by
  unfold enter
  rw [lookup_alter_eq]
  split
  · rename_i same
    rw [same]
  · rfl

/-- No entry tells more than the observations of its key, and together they tell no more than
all observations. -/
structure Bounded (observations : List TopObservation) (entries : Table String TopEntry) :
    Prop where
  each : ∀ key, ((entries.lookup key).getD {}).AtMost (ownObservations key observations)
  together : entries.sum (·.cumulativeLatencyNs.val) ≤ totalLatency observations

section

variable (bounded : Bounded observations entries)
include bounded

variable (observed : TopObservation)

theorem Bounded.later :
    Bounded (observations ++ [observed]) entries where
  each key := by
    rw [ownObservations_snoc]
    split
    · exact (bounded.each key).later
    · exact bounded.each key
  together := by
    rw [totalLatency_snoc]
    exact bounded.together.trans (le_add_right _ _)

theorem Bounded.erase (victim : String) :
    Bounded observations (entries.erase victim) where
  each key := by
    rw [lookup_erase_eq]
    split
    · exact ⟨zero_le _, zero_le _, zero_le _, zero_le _⟩
    · exact bounded.each key
  together := by
    have sums := ((entries.perm_values_erase victim).map (·.cumulativeLatencyNs.val)).sum_nat
    rw [map_append, List.sum_append] at sums
    exact (le_of_add_right_le sums.le).trans bounded.together

theorem Bounded.enter :
    Bounded (observations ++ [observed]) (enter entries observed) where
  each key := by
    rw [lookup_enter, ownObservations_snoc]
    by_cases same : key = observed.key
    · rw [if_pos same, if_pos same.symm]
      exact (bounded.each key).add
    · rw [if_neg same, if_neg fun equal => same equal.symm]
      exact bounded.each key
  together := by
    have sums := entries.sum_insert (·.cumulativeLatencyNs.val) observed.key
      (((entries.lookup observed.key).getD {}).add observed)
    have more : (((entries.lookup observed.key).getD {}).add observed).cumulativeLatencyNs.val ≤
        ((entries.lookup observed.key).getD {}).cumulativeLatencyNs.val +
          observed.latencyNs.val := by
      show (saturatingAdd _ _).val ≤ _
      rw [saturatingAdd_val]
      exact min_le_left _ _
    have old : (entries.lookup observed.key).elim 0 (·.cumulativeLatencyNs.val) =
        ((entries.lookup observed.key).getD {}).cumulativeLatencyNs.val := by
      cases entries.lookup observed.key <;> rfl
    have together := bounded.together
    rw [totalLatency_snoc]
    show sum _ (AList.insert observed.key
      (((entries.lookup observed.key).getD {}).add observed) entries) ≤ _
    omega

end

end Entries

/-! ### Runs -/

section Runs

variable {observations : List TopObservation} {top : BoundedTop} {step : Step}

variable (entries : Table String TopEntry)

theorem keySet_admit (observed : TopObservation) :
    (enter entries observed).keySet = insert observed.key entries.keySet :=
  keySet_insert _ _ _

theorem size_enter_le (observed : TopObservation) :
    (enter entries observed).size ≤ entries.size + 1 :=
  size_insert_le _ _ _

theorem size_observe_le (few : top.entries.size ≤ top.capacity.val) (yields : top.Yields step) :
    (top.observe step).entries.size ≤ top.capacity.val := by
  rcases top.observe_cases step with ⟨free, same, -⟩ | ⟨-, victim, member, same⟩ | ⟨-, same⟩
  · rw [same]
    rcases Bool.and_eq_false_iff.mp free with known | room
    · rw [Bool.not_eq_false'] at known
      have member := mem_keySet.mpr known
      rw [← card_keySet, keySet_admit, Finset.insert_eq_of_mem member, card_keySet]
      exact few
    · exact (size_enter_le _ _).trans (lt_of_le_of_ne few (ne_of_beq_false room))
  · rw [same]
    have found : top.entries.lookup victim.1 = some victim.2 :=
      mem_toPairs.mp (yields.subset member)
    have sizes := top.entries.size_erase victim.1
    rw [found, Option.toList_some, length_singleton] at sizes
    exact ((size_enter_le _ _).trans_eq sizes).trans few
  · rw [same]
    exact few

theorem Bounded.observe (bounded : Bounded observations top.entries) (step : Step) :
    Bounded (observations ++ [step.1]) (top.observe step).entries := by
  rcases top.observe_cases step with ⟨-, same, -⟩ | ⟨-, victim, -, same⟩ | ⟨-, same⟩
  · rw [same]
    exact bounded.enter step.1
  · rw [same]
    exact (bounded.erase victim.1).enter step.1
  · rw [same]
    exact bounded.later step.1

structure Complete (observations : List TopObservation) (top : BoundedTop) : Prop where
  exactly : ∀ key, ((top.entries.lookup key).getD {}).Exactly (ownObservations key observations)
  keys : top.entries.keySet = (observations.map (·.key)).toFinset
  none_ : top.evictedKeys = 0

/-- No sum leaves a word. -/
structure InRange (observations : List TopObservation) : Prop where
  count : observations.length < 2 ^ 64
  bytes : totalBytes observations < 2 ^ 64
  latency : totalLatency observations < 2 ^ 64

theorem InRange.sublist (inRange : InRange observations) {fewer : List TopObservation}
    (among : fewer.Sublist observations) : InRange fewer where
  count := among.length_le.trans_lt inRange.count
  bytes := (totalBytes_le_of_sublist among).trans_lt inRange.bytes
  latency := (totalLatency_le_of_sublist among).trans_lt inRange.latency

theorem Complete.observe (complete : Complete observations top)
    (inRange : InRange (observations ++ [step.1]))
    (room : ((observations ++ [step.1]).map (·.key)).toFinset.card ≤ top.capacity.val) :
    Complete (observations ++ [step.1]) (top.observe step) := by
  have grown : ((observations ++ [step.1]).map (·.key)).toFinset =
      insert step.1.key top.entries.keySet := by
    rw [map_append, toFinset_append, complete.keys, map_singleton]
    exact Finset.union_comm _ _
  have free : top.isFull step.1.key = false := by
    refine Bool.eq_false_iff.mpr fun full => ?_
    obtain ⟨fresh, taken⟩ := Bool.and_eq_true_iff.mp full
    rw [Bool.not_eq_true'] at fresh
    have missing : step.1.key ∉ top.entries.keySet := fun member =>
      Bool.false_ne_true (fresh.symm.trans (Table.mem_keySet.mp member))
    rw [grown, Finset.card_insert_of_notMem missing, Table.card_keySet, eq_of_beq taken] at room
    exact absurd room (not_succ_le_self _)
  rcases top.observe_cases step with ⟨-, same, none_⟩ | ⟨full, -⟩ | ⟨full, -⟩
  · refine ⟨fun key => ?_, ?_, none_.trans complete.none_⟩
    · rw [same, lookup_enter, ownObservations_snoc]
      by_cases own : key = step.1.key
      · have ownRange := inRange.sublist (sublist_ownObservations key _)
        rw [ownObservations_snoc, if_pos own.symm] at ownRange
        rw [if_pos own, if_pos own.symm]
        have count := ownRange.count
        rw [length_append, length_singleton] at count
        exact (complete.exactly key).add count ownRange.bytes ownRange.latency
      · rw [if_neg own, if_neg fun equal => own equal.symm]
        exact complete.exactly key
    · rw [same, keySet_admit, grown]
  · rw [free] at full
    cases full
  · rw [free] at full
    cases full

structure Honest (capacity : U64) (observations : List TopObservation) (top : BoundedTop) :
    Prop where
  sameCapacity : top.capacity = capacity
  few : top.entries.size ≤ capacity.val
  bounded : Bounded observations top.entries
  total : top.totalMetric.val = min (totalLatency observations) (2 ^ 64 - 1)
  complete : InRange observations →
    (observations.map (·.key)).toFinset.card ≤ capacity.val → Complete observations top

theorem honest_start (capacity : U64) : Honest capacity [] { capacity := capacity } where
  sameCapacity := rfl
  few := zero_le _
  bounded := ⟨fun _ => ⟨zero_le _, zero_le _, zero_le _, zero_le _⟩,
    zero_le _⟩
  total := rfl
  complete _ _ := ⟨fun _ => TopEntry.exactly_nil, rfl, rfl⟩

theorem Honest.observe {capacity : U64} (honest : Honest capacity observations top)
    (yields : top.Yields step) :
    Honest capacity (observations ++ [step.1]) (top.observe step) where
  sameCapacity := (top.observe_capacity step).trans honest.sameCapacity
  few := by
    rw [← honest.sameCapacity]
    exact size_observe_le (honest.sameCapacity ▸ honest.few) yields
  bounded := honest.bounded.observe step
  total := by
    have total := honest.total
    rw [observe_totalMetric, saturatingAdd_val, totalLatency_snoc]
    omega
  complete inRange room := by
    have among : (observations.map (·.key)).toFinset ⊆
        ((observations ++ [step.1]).map (·.key)).toFinset := by
      rw [map_append, toFinset_append]
      exact Finset.subset_union_left
    have complete := honest.complete (inRange.sublist (sublist_append_left _ _))
      ((Finset.card_le_card among).trans room)
    exact complete.observe inRange (honest.sameCapacity ▸ room)

theorem honest_run (capacity : U64) (steps : List Step)
    (yields : StepsMeet (fun history step =>
      (run observe { capacity := capacity } history).Yields step) steps) :
    Honest capacity (steps.map (·.1)) (run observe { capacity := capacity } steps) := by
  refine run_induction_of_stepsMeet (fun history top => Honest capacity (history.map (·.1)) top)
    (honest_start capacity) (fun history step yields honest => ?_) steps yields
  rw [map_append]
  exact honest.observe yields

end Runs

/-! ### What is reported -/

section Snapshot

variable {top : BoundedTop}

theorem mem_ranking {entry : HeavyHitterEntry} :
    entry ∈ top.ranking ↔ top.entries.lookup entry.key = some entry.toTopEntry := by
  unfold ranking
  rw [mem_insertionSort, mem_map]
  constructor
  · rintro ⟨⟨key, value⟩, member, rfl⟩
    exact Table.mem_toPairs.mp member
  · intro found
    exact ⟨(entry.key, entry.toTopEntry), Table.mem_toPairs.mpr found, rfl⟩

theorem sum_ranking (top : BoundedTop) :
    (top.ranking.map (·.cumulativeLatencyNs.val)).sum =
      top.entries.sum (·.cumulativeLatencyNs.val) := by
  unfold ranking
  rw [((perm_insertionSort HeavyHitterEntry.ranksBefore _).map _).sum_nat, map_map]
  unfold Table.sum Table.values
  rw [map_map]
  rfl

theorem covered_le (top : BoundedTop) :
    ((top.ranking.take 20).map (·.cumulativeLatencyNs.val)).sum ≤
      top.entries.sum (·.cumulativeLatencyNs.val) := by
  rw [← sum_ranking]
  exact ((take_sublist 20 _).map _).sum_le_sum fun _ _ => zero_le _

end Snapshot

/-- For every capacity, every sequence of observations whose sums are in range and every order in
which the map yields its entries: the table has at most as many keys as its capacity, no value that
is reported exceeds the truth about its key, the report is sorted by latency and then by key, and
it does not cover more than the total. -/
theorem bounded_top_never_over_reports (capacity : U64) (steps : List Step)
    (inRange : InRange (steps.map (·.1)))
    (yields : StepsMeet (fun history step =>
      (run observe { capacity := capacity } history).Yields step) steps)
    (epoch : U64) (dimension : HeavyHitterDimension) :
    let observations := steps.map (·.1)
    let top := run observe { capacity := capacity } steps
    let report := top.snapshot epoch dimension
    top.entries.size ≤ capacity.val ∧
      (∀ entry ∈ report.entries, entry.toTopEntry.AtMost (ownObservations entry.key observations)) ∧
      report.entries.Pairwise (fun first second =>
        second.cumulativeLatencyNs < first.cumulativeLatencyNs ∨
          first.cumulativeLatencyNs = second.cumulativeLatencyNs ∧ first.key ≤ second.key) ∧
      report.coveredMetric.val = (report.entries.map (·.cumulativeLatencyNs.val)).sum ∧
      report.coveredMetric ≤ report.totalMetric ∧
      ((observations.map (·.key)).toFinset.card ≤ capacity.val →
        report.evictedKeys = 0 ∧ report.totalMetric.val = totalLatency observations ∧
        (∀ observed ∈ observations, ∃ value, top.entries.lookup observed.key = some value) ∧
        ∀ key value, top.entries.lookup key = some value →
          value.Exactly (ownObservations key observations)) := by
  intro observations top report
  have honest : Honest capacity observations top := honest_run capacity steps yields
  have total : top.totalMetric.val = totalLatency observations := by
    have latency := inRange.latency
    rw [honest.total]
    exact min_eq_left (le_sub_one_of_lt latency)
  have covered : ((top.ranking.take 20).map (·.cumulativeLatencyNs.val)).sum ≤
      top.totalMetric.val :=
    (covered_le top).trans (honest.bounded.together.trans total.ge)
  refine ⟨honest.few, fun entry member => ?_, ?_, ?_, ?_, fun room => ?_⟩
  · have found := mem_ranking.mp (mem_of_mem_take member)
    have bound := honest.bounded.each entry.key
    rw [found] at bound
    exact bound
  · refine ((pairwise_insertionSort HeavyHitterEntry.ranksBefore _).sublist
      (take_sublist 20 _)).imp fun {first second} before => ?_
    rcases Prod.Lex.le_iff.mp before with less | ⟨same, keys⟩
    · exact .inl (OrderDual.toDual_lt_toDual.mp less)
    · exact Or.inr ⟨OrderDual.toDual_inj.mp same, keys⟩
  · exact mod_eq_of_lt (covered.trans_lt top.totalMetric.isLt)
  · exact (mod_le _ _).trans covered
  · have complete := honest.complete inRange room
    refine ⟨complete.none_, total, fun observed member => ?_, fun key value found => ?_⟩
    · have known : observed.key ∈ top.entries.keySet := by
        rw [complete.keys, mem_toFinset]
        exact mem_map_of_mem member
      exact Option.isSome_iff_exists.mp (Table.mem_keySet.mp known)
    · have exactly := complete.exactly key
      rw [found] at exactly
      exact exactly

def sampleSteps : List Step :=
  [(⟨"a", 4096, 10, none⟩, []), (⟨"b", 4096, 20, none⟩, [("a", ⟨1, 4096, 10, 10, none⟩)]),
    (⟨"a", 4096, 15, none⟩, [("b", ⟨1, 4096, 20, 20, none⟩)])]

theorem bounded_top_of_sample :
    (run observe { capacity := 1 } sampleSteps).evictedKeys = 2 ∧
      (run observe { capacity := 1 } sampleSteps).entries.size ≤ 1 := by
  refine ⟨by decide +kernel, (bounded_top_never_over_reports 1 sampleSteps
    ⟨by decide +kernel, by decide +kernel, by decide +kernel⟩ ?_ 0 .process).1⟩
  refine StepsMeet.snoc (StepsMeet.snoc (StepsMeet.snoc (stepsMeet_nil _) ?_) ?_) ?_
  · exact Perm.refl _
  · exact Perm.of_eq (by decide +kernel)
  · exact Perm.of_eq (by decide +kernel)

end BoundedTop

end EbpfStudio
