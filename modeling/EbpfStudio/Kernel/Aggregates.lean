/-
This file accounts for the completions that the kernel counts.

The kernel counts for the active generation, and the agent reads the aggregates of the one that it
applied last. `Accounted` keeps the balance: what was counted is what the last snapshots of the
generations have, what is unread, and what was lost when a configuration was put into effect before
a last read.
-/

import EbpfStudio.Kernel.Isolation
import EbpfStudio.Kernel.Counters

namespace EbpfStudio

open Run Tally List Option Finset CounterName BlockKernel

namespace KernelAggregate

def observedIn (generation : U64) (aggregate : KernelAggregate) : Nat :=
  if aggregate.generation = generation then aggregate.counters.observed.val else 0

theorem observedIn_eq_countIn (generation : U64) (aggregate : KernelAggregate) :
    aggregate.observedIn generation =
      (observed.counter.countIn generation aggregate).val := by
  unfold observedIn AggregateCounter.countIn
  split <;> rfl

theorem generation_foldl_le {generation : U64} {aggregate : KernelAggregate}
    {updates : List AggregateUpdate} (older : aggregate.generation ≤ generation) :
    (updates.foldl (aggregateUpdate generation) aggregate).generation ≤ generation := by
  induction updates generalizing aggregate with
  | nil => exact older
  | cons update rest hypothesis =>
    exact hypothesis (generation_aggregateUpdate generation aggregate update).le

end KernelAggregate

namespace BlockKernel

variable {cpus : Nat} {kernel : BlockKernel cpus}

def observedIn (kernel : BlockKernel cpus) (generation : U64) : Nat :=
  ∑ cpu, (kernel.aggregates cpu).observedIn generation

theorem observedIn_eq_countIn (kernel : BlockKernel cpus) (generation : U64) :
    kernel.observedIn generation = kernel.countIn observed.counter generation :=
  sum_congr rfl fun _ _ => KernelAggregate.observedIn_eq_countIn generation _

theorem observedIn_afterProbe (wellFormed : kernel.WellFormed) {probe : BlockProbe cpus}
    (few : kernel.observedIn kernel.config.generation +
      (kernel.processBlock probe).completions < 2 ^ 64) :
    (kernel.afterProbe probe).observedIn kernel.config.generation =
      kernel.observedIn kernel.config.generation + (kernel.processBlock probe).completions := by
  have amounts : observed.counter.amounts (kernel.processBlock probe).updates =
      (kernel.processBlock probe).completions := AggregateCounter.observed_amounts _
  rw [observedIn_eq_countIn, observedIn_eq_countIn] at *
  rw [← amounts] at few ⊢
  exact countIn_afterProbe wellFormed observed.counter few

def CountsUpTo (kernel : BlockKernel cpus) (generation : U64) : Prop :=
  ∀ cpu, (kernel.aggregates cpu).generation ≤ generation

theorem CountsUpTo.afterProbe (older : kernel.CountsUpTo kernel.config.generation)
    (probe : BlockProbe cpus) :
    (kernel.afterProbe probe).CountsUpTo kernel.config.generation := by
  intro cpu
  unfold BlockKernel.afterProbe
  dsimp only
  by_cases same : cpu = probe.cpu
  · subst same
    rw [Function.update_self]
    exact KernelAggregate.generation_foldl_le (older probe.cpu)
  · rw [Function.update_of_ne same]
    exact older cpu

theorem observedIn_of_later {generation later : U64} (older : kernel.CountsUpTo generation)
    (newer : generation < later) : kernel.observedIn later = 0 := by
  refine Finset.sum_eq_zero fun cpu _ => ?_
  exact if_neg (ne_of_lt ((older cpu).trans_lt newer))

theorem observed_readAggregateSnapshot (wellFormed : kernel.WellFormed) {generation : U64}
    (sessionId : String) (epoch : U64) (few : kernel.observedIn generation < 2 ^ 64) :
    (readAggregateSnapshot sessionId epoch generation
      (ofFn kernel.aggregates)).counters.observed.val = kernel.observedIn generation := by
  rw [observedIn_eq_countIn] at few ⊢
  exact read_merged wellFormed observed.counter few

end BlockKernel

def lastObserved (snapshots : List AggregateSnapshot) (generation : U64) : Nat :=
  (lastMatch (fun snapshot => snapshot.configGeneration = generation) snapshots).elim 0
    (·.counters.observed.val)

def reportedGenerations (snapshots : List AggregateSnapshot) : Finset U64 :=
  (snapshots.map (·.configGeneration)).toFinset

def reported (snapshots : List AggregateSnapshot) : Nat :=
  ∑ generation ∈ reportedGenerations snapshots, lastObserved snapshots generation

section Snapshots

variable {snapshots : List AggregateSnapshot}

theorem lastObserved_snoc (snapshots : List AggregateSnapshot) (snapshot : AggregateSnapshot)
    (generation : U64) :
    lastObserved (snapshots ++ [snapshot]) generation =
      if snapshot.configGeneration = generation then snapshot.counters.observed.val
      else lastObserved snapshots generation := by
  unfold lastObserved
  rw [lastMatch_snoc]
  by_cases same : snapshot.configGeneration = generation
  · simp [same]
  · simp [same]

theorem lastObserved_of_not_mem {generation : U64}
    (unreported : generation ∉ reportedGenerations snapshots) :
    lastObserved snapshots generation = 0 := by
  unfold lastObserved
  cases found : lastMatch (fun snapshot => snapshot.configGeneration = generation) snapshots with
  | none => rfl
  | some snapshot =>
    obtain ⟨before, after, split, ofGeneration, -⟩ := lastMatch_eq_some_iff.mp found
    refine absurd (List.mem_toFinset.mpr (List.mem_map.mpr ⟨snapshot, ?_, ?_⟩)) unreported
    · rw [split]
      exact (List.mem_append_right _ List.mem_cons_self)
    · exact of_decide_eq_true ofGeneration

theorem reported_eq_sum {generations : Finset U64}
    (all : reportedGenerations snapshots ⊆ generations) :
    reported snapshots = ∑ generation ∈ generations, lastObserved snapshots generation :=
  sum_subset all fun _ _ unreported => lastObserved_of_not_mem unreported

theorem reported_snoc (snapshots : List AggregateSnapshot) (snapshot : AggregateSnapshot) :
    reported (snapshots ++ [snapshot]) + lastObserved snapshots snapshot.configGeneration =
      reported snapshots + snapshot.counters.observed.val := by
  have generations : reportedGenerations (snapshots ++ [snapshot]) =
      insert snapshot.configGeneration (reportedGenerations snapshots) := by
    unfold reportedGenerations
    rw [map_append, toFinset_append, union_comm]
    rfl
  rw [reported_eq_sum (subset_insert snapshot.configGeneration
    (reportedGenerations snapshots)), ← generations]
  have last := lastObserved_snoc snapshots snapshot snapshot.configGeneration
  rw [if_pos rfl] at last
  rw [← last]
  refine sum_add_eq_of_agree ?_ fun generation other => ?_
  · rw [generations]
    exact mem_insert_self _ _
  · rw [lastObserved_snoc, if_neg (Ne.symm other)]

theorem lastObserved_le_reported (snapshots : List AggregateSnapshot) (generation : U64) :
    lastObserved snapshots generation ≤ reported snapshots := by
  rw [reported_eq_sum (subset_insert generation (reportedGenerations snapshots))]
  exact single_le_sum_of_canonicallyOrdered (mem_insert_self _ _)

end Snapshots

namespace Capture

variable {cpus : Nat}

def completions (capture : Capture cpus) : CaptureStep cpus → Nat
  | .probe probe => (capture.kernel.processBlock probe).completions
  | _ => 0

def unread (capture : Capture cpus) : Nat :=
  capture.kernel.observedIn capture.generation - lastObserved capture.snapshots capture.generation

/-- What a step loses: a configuration that is put into effect while something is unread. -/
def dropped (collectorPid : U32) (capture : Capture cpus) : CaptureStep cpus → Nat
  | .apply config fails =>
    match (capture.kernel.maps.apply collectorPid fails config).2 with
    | .ok _ => capture.unread
    | .error _ => 0
  | _ => 0

/-- The generation that the agent applied last is the one that the kernel reads. -/
structure Agrees (capture : Capture cpus) : Prop where
  consistent : capture.kernel.maps.Consistent
  active : capture.kernel.maps.active = capture.generation
  stored : capture.generation ≠ 0 →
    (capture.kernel.maps.configs.lookup capture.generation).isSome = true

theorem Agrees.generation {capture : Capture cpus} (agrees : capture.Agrees) :
    capture.kernel.config.generation = capture.generation := by
  unfold config FilterMaps.activeFilter
  rw [agrees.active]
  by_cases zero : capture.generation = 0
  · rw [if_pos zero, zero]
    rfl
  · obtain ⟨config, found⟩ := isSome_iff_exists.mp (agrees.stored zero)
    rw [if_neg zero, found]
    exact agrees.consistent _ config found

theorem Agrees.apply {capture : Capture cpus} (agrees : capture.Agrees) (collectorPid : U32)
    (config : CaptureConfig) (fails : Nat → Bool) :
    (capture.apply collectorPid config fails).Agrees ∧
      ((capture.apply collectorPid config fails).generation = capture.generation ∧
          capture.dropped collectorPid (.apply config fails) = 0 ∨
        (capture.apply collectorPid config fails).generation = config.generation ∧
          capture.dropped collectorPid (.apply config fails) = capture.unread) := by
  obtain ⟨changed, outcome⟩ :=
    FilterMaps.apply_cases collectorPid fails capture.kernel.maps config
  have consistent := agrees.consistent.of_changedOnly changed
  unfold Capture.apply dropped
  dsimp only
  generalize capture.kernel.maps.apply collectorPid fails config = applied at *
  obtain ⟨maps, result⟩ := applied
  rcases outcome with ⟨⟨error, rfl⟩, active⟩ | ⟨rfl, active, stored, -⟩
  · refine ⟨⟨consistent, active.trans agrees.active, fun nonzero => ?_⟩, .inl ⟨rfl, rfl⟩⟩
    rcases changed.configs capture.generation with same | ⟨-, replaced⟩
    · exact (congrArg isSome same).trans (agrees.stored nonzero)
    · exact congrArg isSome replaced
  · exact ⟨⟨consistent, active, fun _ => congrArg isSome stored⟩, .inr ⟨rfl, rfl⟩⟩

/-- What the agent and the kernel have of the completions that were counted, if so many were
lost. Nothing is of a later generation than that of the agent. -/
structure Accounted (counted lost : Nat) (capture : Capture cpus) : Prop where
  agrees : capture.Agrees
  counts : capture.kernel.CountsUpTo capture.generation
  reports : ∀ generation ∈ reportedGenerations capture.snapshots,
    generation ≤ capture.generation
  isRead : lastObserved capture.snapshots capture.generation ≤
    capture.kernel.observedIn capture.generation
  balance : reported capture.snapshots + lost + capture.kernel.observedIn capture.generation =
    counted + lastObserved capture.snapshots capture.generation

variable {counted lost : Nat} {capture : Capture cpus}

section

variable (accounted : Accounted counted lost capture)
include accounted

theorem Accounted.observedIn_le :
    capture.kernel.observedIn capture.generation ≤ counted := by
  have balance := accounted.balance
  have part := lastObserved_le_reported capture.snapshots capture.generation
  omega

theorem Accounted.apply {collectorPid : U32} {config : CaptureConfig} {fails : Nat → Bool}
    (newer : capture.generation < config.generation) :
    Accounted counted (lost + capture.dropped collectorPid (.apply config fails))
      (capture.apply collectorPid config fails) := by
  obtain ⟨agrees, outcome⟩ := accounted.agrees.apply collectorPid config fails
  have sameCounts : ∀ generation, (capture.apply collectorPid config fails).kernel.observedIn
      generation = capture.kernel.observedIn generation := fun _ => rfl
  have sameSnapshots : (capture.apply collectorPid config fails).snapshots = capture.snapshots :=
    rfl
  have isRead := accounted.isRead
  have balance := accounted.balance
  rcases outcome with ⟨kept, nothing⟩ | ⟨switched, unread⟩
  · refine ⟨agrees, ?_, ?_, ?_, ?_⟩
    · rw [kept]
      exact accounted.counts
    · rw [kept]
      exact accounted.reports
    · rw [kept, sameCounts, sameSnapshots]
      exact isRead
    · rw [kept, nothing, sameCounts, sameSnapshots]
      exact balance
  · have unreported : lastObserved capture.snapshots config.generation = 0 :=
      lastObserved_of_not_mem fun listed => (accounted.reports _ listed).not_gt newer
    have uncounted := BlockKernel.observedIn_of_later accounted.counts newer
    refine ⟨agrees, ?_, ?_, ?_, ?_⟩
    · rw [switched]
      exact fun cpu => (accounted.counts cpu).trans newer.le
    · rw [switched]
      exact fun generation listed => (accounted.reports generation listed).trans newer.le
    · rw [switched, sameCounts, sameSnapshots, unreported]
      exact Nat.zero_le _
    · rw [switched, unread, sameCounts, sameSnapshots, unreported, uncounted]
      unfold Capture.unread
      omega

theorem Accounted.probe {probe : BlockProbe cpus} (wellFormed : capture.kernel.WellFormed)
    (few : counted + capture.completions (.probe probe) < 2 ^ 64) :
    Accounted (counted + capture.completions (.probe probe)) lost
      { capture with kernel := capture.kernel.afterProbe probe } := by
  have bound := accounted.observedIn_le
  have generation := accounted.agrees.generation
  have counts : (capture.kernel.afterProbe probe).CountsUpTo capture.kernel.config.generation :=
    CountsUpTo.afterProbe (generation ▸ accounted.counts) probe
  have added : (capture.kernel.afterProbe probe).observedIn capture.kernel.config.generation =
      capture.kernel.observedIn capture.kernel.config.generation +
        capture.completions (.probe probe) := by
    refine observedIn_afterProbe wellFormed ?_
    rw [generation]
    exact (Nat.add_le_add_right bound _).trans_lt few
  rw [generation] at counts added
  have isRead := accounted.isRead
  have balance := accounted.balance
  refine ⟨⟨accounted.agrees.consistent, accounted.agrees.active, accounted.agrees.stored⟩,
    counts, accounted.reports, ?_, ?_⟩
  · dsimp only
    omega
  · dsimp only
    omega

theorem Accounted.read (wellFormed : capture.kernel.WellFormed) (few : counted < 2 ^ 64)
    (sessionId : String) :
    Accounted counted lost (capture.read sessionId) ∧
      reported (capture.read sessionId).snapshots + lost = counted := by
  have bound := accounted.observedIn_le
  have balance := accounted.balance
  have observed := BlockKernel.observed_readAggregateSnapshot wellFormed sessionId
    (capture.epoch.saturatingAdd 1) (bound.trans_lt few)
  have last : lastObserved (capture.read sessionId).snapshots capture.generation =
      capture.kernel.observedIn capture.generation :=
    (lastObserved_snoc ..).trans ((if_pos rfl).trans observed)
  have sum : reported (capture.read sessionId).snapshots +
      lastObserved capture.snapshots capture.generation =
        reported capture.snapshots + capture.kernel.observedIn capture.generation :=
    (reported_snoc ..).trans (congrArg (reported capture.snapshots + ·) observed)
  refine ⟨⟨⟨accounted.agrees.consistent, accounted.agrees.active, accounted.agrees.stored⟩,
    accounted.counts, ?_, last.le, ?_⟩, by omega⟩
  · intro generation listed
    unfold Capture.read reportedGenerations at listed
    rw [map_append, toFinset_append, mem_union] at listed
    rcases listed with earlier | now
    · exact accounted.reports generation earlier
    · exact (List.mem_singleton.mp (List.mem_toFinset.mp now)).le
  · show reported (capture.read sessionId).snapshots + lost +
      capture.kernel.observedIn capture.generation =
        counted + lastObserved (capture.read sessionId).snapshots capture.generation
    omega

end

end Capture

section Runs

variable {cpus : Nat}

/-- Every attempt is for a later generation than that of the agent. A control command for another
one is rejected. -/
def GenerationsIncrease (collectorPid : U32) (sessionId : String)
    (steps : List (CaptureStep cpus)) : Prop :=
  StepsMeet (fun history step => ∀ generation, step.triedGeneration = some generation →
    (run (Capture.step collectorPid sessionId) {} history).generation < generation) steps

def countedIn (collectorPid : U32) (sessionId : String) (steps : List (CaptureStep cpus)) : Nat :=
  total (Capture.step collectorPid sessionId) Capture.completions {} steps

def lostIn (collectorPid : U32) (sessionId : String) (steps : List (CaptureStep cpus)) : Nat :=
  total (Capture.step collectorPid sessionId) (Capture.dropped collectorPid) {} steps

/-- No configuration is put into effect while completions of the one before are unread. -/
def SwitchesAreRead (collectorPid : U32) (sessionId : String)
    (steps : List (CaptureStep cpus)) : Prop :=
  StepsMeet (fun history step =>
    (run (Capture.step collectorPid sessionId) {} history).dropped collectorPid step = 0) steps

theorem accounted_run (collectorPid : U32) (sessionId : String) (steps : List (CaptureStep cpus))
    (increase : GenerationsIncrease collectorPid sessionId steps)
    (few : countedIn collectorPid sessionId steps < 2 ^ 64) :
    Capture.Accounted (countedIn collectorPid sessionId steps)
      (lostIn collectorPid sessionId steps)
      (run (Capture.step collectorPid sessionId) {} steps) := by
  induction steps using reverseRecOn with
  | nil =>
    refine ⟨⟨fun _ _ found => (by cases found), rfl, fun nonzero => absurd rfl nonzero⟩,
      fun _ => le_refl _, fun _ listed => absurd listed (notMem_empty _), Nat.zero_le _, ?_⟩
    exact Nat.zero_add _ |>.trans (sum_eq_zero fun _ _ => if_pos rfl)
  | append_singleton history step hypothesis =>
    have newer := increase.last
    unfold countedIn at few
    rw [total_snoc] at few
    unfold countedIn lostIn
    rw [total_snoc, total_snoc, run_snoc]
    have before := hypothesis increase.of_append
      (Nat.lt_of_le_of_lt (Nat.le_add_right _ _) few)
    have wellFormed := wellFormed_run collectorPid sessionId history
    cases step with
    | apply config fails => exact before.apply (newer _ rfl)
    | probe probe => exact before.probe wellFormed few
    | read => exact (before.read wellFormed few sessionId).1

end Runs

/-- After a final read the last snapshots of the generations have counted exactly the completions
that the kernel counted if and only if no configuration was put into effect while completions of
the one before were unread. -/
theorem snapshots_count_completions {cpus : Nat} (collectorPid : U32) (sessionId : String)
    (steps : List (CaptureStep cpus))
    (increase : GenerationsIncrease collectorPid sessionId steps)
    (few : countedIn collectorPid sessionId steps < 2 ^ 64) :
    reported ((run (Capture.step collectorPid sessionId) {} steps).read sessionId).snapshots =
        countedIn collectorPid sessionId steps ↔
      SwitchesAreRead collectorPid sessionId steps := by
  have accounted := accounted_run collectorPid sessionId steps increase few
  have sum := (accounted.read (wellFormed_run collectorPid sessionId steps) few sessionId).2
  have lossless : lostIn collectorPid sessionId steps = 0 ↔
      SwitchesAreRead collectorPid sessionId steps := total_eq_zero_iff
  rw [← lossless]
  omega

/-- A request is issued and completes while generation 1 is active. The agent reads before it
puts generation 2 into effect. -/
def readThenSwitch : List (CaptureStep 1) :=
  [.apply (pidConfig 1 [10]) fun _ => false, .probe (probeBy .issue 10 100),
    .probe (probeBy .complete 0 200), .read, .apply (pidConfig 2 [20]) fun _ => false]

theorem snapshots_count_completions_read :
    countedIn 7 "s" readThenSwitch = 1 ∧
      reported ((run (Capture.step 7 "s") {} readThenSwitch).read "s").snapshots =
        countedIn 7 "s" readThenSwitch := by
  have counted : countedIn 7 "s" readThenSwitch = 1 := by decide +kernel
  have increase : GenerationsIncrease 7 "s" readThenSwitch := by
    refine (((((stepsMeet_nil _).snoc ?_).snoc ?_).snoc ?_).snoc ?_).snoc ?_
    · rintro generation ⟨⟩
      decide +kernel
    · rintro generation ⟨⟩
    · rintro generation ⟨⟩
    · rintro generation ⟨⟩
    · rintro generation ⟨⟩
      decide +kernel
  refine ⟨counted, (snapshots_count_completions 7 "s" readThenSwitch increase ?_).mpr ?_⟩
  · rw [counted]
    decide
  · refine (((((stepsMeet_nil _).snoc ?_).snoc ?_).snoc ?_).snoc ?_).snoc ?_
    all_goals decide +kernel

/-- The agent reads, a request completes while generation 1 is active, and generation 2 is put
into effect before the final read. The snapshots have counted nothing. -/
theorem switch_loses_completion :
    let steps : List (CaptureStep 1) :=
      [.apply (pidConfig 1 [10]) fun _ => false, .read, .probe (probeBy .issue 10 100),
        .probe (probeBy .complete 0 200), .apply (pidConfig 2 [20]) fun _ => false]
    countedIn 7 "s" steps = 1 ∧
      reported ((run (Capture.step 7 "s") {} steps).read "s").snapshots = 0 := by
  decide +kernel

end EbpfStudio
