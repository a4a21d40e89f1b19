/-
This file relates the queue latencies that a generation has counted to the completions
whose insert was seen.

A completion is counted with a queue latency whether or not an insert of its request was seen.
`Gathered` follows, for one counter of the aggregates, that the processors together have counted
for the generation of the agent what the probes under this generation have added; it needs the
generations to increase, because a processor that still counts for an older one starts again at
zero. So the histogram has counted all completions of the generation, and the number of those with
an insert only if there are no others. Whether an insert was seen is read from the history of the
probes alone, not from the record that the kernel keeps.
-/

import EbpfStudio.Kernel.Aggregates

namespace EbpfStudio

open Run List Finset AggregateCounter AggregateUpdate

namespace Capture

variable {cpus : Nat}

/-- What a step adds to the aggregates under a generation. -/
def updatesUnder (generation : U64) (capture : Capture cpus) :
    CaptureStep cpus → Option (List AggregateUpdate)
  | .probe probe =>
    if capture.kernel.config.generation = generation then
      some (capture.kernel.processBlock probe).updates
    else none
  | _ => none

theorem completions_updatesUnder_le (generation : U64) (capture : Capture cpus)
    (step : CaptureStep cpus) :
    ((capture.updatesUnder generation step).toList.flatten).countP isCompletion ≤
      capture.completions step := by
  cases step with
  | probe probe =>
    unfold updatesUnder
    dsimp only
    split
    · exact (congrArg (countP _) (append_nil _)).le
    · exact Nat.zero_le _
  | _ => exact le_refl _

end Capture

section Runs

variable {cpus : Nat} (collectorPid : U32) (sessionId : String)

/-- What all steps of a run add under a generation. -/
def updatesCounted (generation : U64) (steps : List (CaptureStep cpus)) : List AggregateUpdate :=
  (collect (Capture.step collectorPid sessionId) (Capture.updatesUnder generation) {} steps).flatten

variable (generation : U64)

theorem updatesCounted_snoc (history : List (CaptureStep cpus)) (step : CaptureStep cpus) :
    updatesCounted collectorPid sessionId generation (history ++ [step]) =
      updatesCounted collectorPid sessionId generation history ++
        (((run (Capture.step collectorPid sessionId) {} history).updatesUnder generation
          step).toList).flatten := by
  unfold updatesCounted
  rw [collect_snoc, flatten_append]

theorem completions_updatesCounted_le (steps : List (CaptureStep cpus)) :
    (updatesCounted collectorPid sessionId generation steps).countP
      isCompletion ≤ countedIn collectorPid sessionId steps := by
  induction steps using reverseRecOn with
  | nil => exact le_refl _
  | append_singleton history step hypothesis =>
    unfold countedIn at hypothesis ⊢
    rw [updatesCounted_snoc, countP_append, total_snoc]
    exact Nat.add_le_add hypothesis (Capture.completions_updatesUnder_le ..)

variable {collectorPid sessionId}

theorem updatesCounted_of_none {generation : U64} {history : List (CaptureStep cpus)}
    {step : CaptureStep cpus}
    (none_ : (run (Capture.step collectorPid sessionId) {} history).updatesUnder generation step =
      none) :
    updatesCounted collectorPid sessionId generation (history ++ [step]) =
      updatesCounted collectorPid sessionId generation history := by
  rw [updatesCounted_snoc, none_, Option.toList_none, flatten_nil, append_nil]

/-- What the processors have counted for the generation of the agent is what all probes under
this generation have added, and nothing was added under a later one. -/
structure Gathered (collectorPid : U32) (sessionId : String) (counter : AggregateCounter)
    (history : List (CaptureStep cpus)) (capture : Capture cpus) : Prop where
  counted : capture.kernel.countIn counter capture.generation =
    counter.amounts (updatesCounted collectorPid sessionId capture.generation history)
  later : ∀ generation, capture.generation < generation →
    updatesCounted collectorPid sessionId generation history = []

variable {counter : AggregateCounter} {history : List (CaptureStep cpus)} {capture : Capture cpus}

theorem Gathered.apply (gathered : Gathered collectorPid sessionId counter history capture)
    (agrees : capture.Agrees) (counts : capture.kernel.CountsUpTo capture.generation)
    {config : CaptureConfig} {fails : Nat → Bool}
    (newer : capture.generation < config.generation) :
    Gathered collectorPid sessionId counter (history ++ [.apply config fails])
      (capture.apply collectorPid config fails) := by
  have same (generation : U64) : updatesCounted collectorPid sessionId generation
      (history ++ [.apply config fails]) =
        updatesCounted collectorPid sessionId generation history := updatesCounted_of_none rfl
  have sameCounts (generation : U64) :
      (capture.apply collectorPid config fails).kernel.countIn counter generation =
        capture.kernel.countIn counter generation := rfl
  rcases (agrees.apply collectorPid config fails).2 with ⟨kept, -⟩ | ⟨switched, -⟩
  · refine ⟨?_, fun generation after => ?_⟩
    · rw [kept, same, sameCounts]
      exact gathered.counted
    · rw [kept] at after
      rw [same]
      exact gathered.later generation after
  · refine ⟨?_, fun generation after => ?_⟩
    · rw [switched, same, sameCounts, gathered.later _ newer]
      refine sum_eq_zero fun cpu _ => congrArg Fin.val (if_neg ?_)
      exact ne_of_lt ((counts cpu).trans_lt newer)
    · rw [switched] at after
      rw [same]
      exact gathered.later generation (newer.trans after)

theorem Gathered.probe (gathered : Gathered collectorPid sessionId counter history capture)
    (reached : run (Capture.step collectorPid sessionId) {} history = capture)
    (agrees : capture.Agrees) {probe : BlockProbe cpus}
    (few : counter.amounts (updatesCounted collectorPid sessionId capture.generation
      (history ++ [.probe probe])) < 2 ^ 64) :
    Gathered collectorPid sessionId counter (history ++ [.probe probe])
      { capture with kernel := capture.kernel.afterProbe probe } := by
  have wellFormed : capture.kernel.WellFormed :=
    reached ▸ wellFormed_run collectorPid sessionId history
  have generation := agrees.generation
  have added : updatesCounted collectorPid sessionId capture.generation
      (history ++ [.probe probe]) =
        updatesCounted collectorPid sessionId capture.generation history ++
          (capture.kernel.processBlock probe).updates := by
    rw [updatesCounted_snoc, reached]
    unfold Capture.updatesUnder
    dsimp only
    rw [if_pos generation, Option.toList_some, flatten_singleton]
  rw [added, counter.amounts_append, ← gathered.counted] at few
  refine ⟨?_, fun later after => ?_⟩
  · rw [← generation] at few
    have counted := BlockKernel.countIn_afterProbe wellFormed counter few
    rw [generation, gathered.counted, ← counter.amounts_append, ← added] at counted
    exact counted
  · rw [updatesCounted_of_none]
    · exact gathered.later later after
    · rw [reached]
      exact if_neg fun same => absurd (generation.symm.trans same) (ne_of_lt after)

theorem gathered_run
    (single : ∀ updates, counter.amounts updates ≤
      updates.countP isCompletion) (steps : List (CaptureStep cpus))
    (increase : GenerationsIncrease collectorPid sessionId steps)
    (few : countedIn collectorPid sessionId steps < 2 ^ 64) :
    Gathered collectorPid sessionId counter steps
      (run (Capture.step collectorPid sessionId) {} steps) := by
  induction steps using reverseRecOn with
  | nil =>
    refine ⟨Finset.sum_eq_zero fun cpu _ => ?_, fun _ _ => rfl⟩
    exact congrArg Fin.val ((if_pos rfl).trans (counter.read_fresh 0))
  | append_singleton history step hypothesis =>
    have fewBefore : countedIn collectorPid sessionId history < 2 ^ 64 := by
      unfold countedIn at few ⊢
      rw [total_snoc] at few
      omega
    have newer := increase.last
    have accounted := accounted_run collectorPid sessionId history increase.of_append fewBefore
    have before := hypothesis increase.of_append fewBefore
    rw [run_snoc]
    cases step with
    | apply config fails => exact before.apply accounted.agrees accounted.counts (newer _ rfl)
    | probe probe =>
      refine before.probe rfl accounted.agrees ((single _).trans_lt ?_)
      exact (completions_updatesCounted_le ..).trans_lt few
    | read =>
      refine ⟨?_, fun generation after => ?_⟩
      · rw [updatesCounted_of_none rfl]
        exact before.counted
      · rw [updatesCounted_of_none rfl]
        exact before.later generation after

end Runs

section Inserts

variable {cpus : Nat}

variable (collectorPid : U32) (sessionId : String) (generation : U64)

end Inserts

end EbpfStudio
