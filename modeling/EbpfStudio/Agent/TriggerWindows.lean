/-
This file proves which completions the agent's controller sees.

The kernel counts for as long as a generation lasts, and a snapshot does not start its
counts again. So the value that a snapshot hands to the controller is about all completions
of the generation so far, and about those of its own window only if no earlier ones exist.

A run of the agent is first turned into a run of the kernel with the same configurations and
probes (`exists_driven`), whose histogram is known from the theory of the kernel alone. The
percentile of that histogram is the bound of a bucket, and the bucket that the threshold cuts
holds latencies on both sides of it: a latency below the threshold can be observed above it.
-/

import EbpfStudio.Agent.Control
import EbpfStudio.Kernel.Distribution
import EbpfStudio.Kernel.QueueTime

namespace EbpfStudio

open Run List Option

/-- The upper bound of the bucket of a latency. The last bucket has only a lower one. -/
def bucketBound (latency : U64) : U64 :=
  if histogramIndex latency < histogramBuckets - 1 then
    Word.ofNat 64 (2 ^ (histogramIndex latency + 1) - 1)
  else Word.ofNat 64 (2 ^ (histogramBuckets - 1))

theorem bucketBound_eq (latency : U64) :
    (log2HistogramBoundaries[histogramIndex latency]?).getD
      (if histogramIndex latency = 0 then 0
        else (log2HistogramBoundaries.getD (histogramIndex latency - 1) 0).saturatingAdd 1) =
      bucketBound latency := by
  have few : histogramIndex latency ≤ histogramBuckets - 1 := min_le_right _ _
  by_cases within : histogramIndex latency < histogramBuckets - 1
  · have found : log2HistogramBoundaries[histogramIndex latency]? =
        some (Word.ofNat 64 (2 ^ (histogramIndex latency + 1) - 1)) := by
      rw [log2HistogramBoundaries, getElem?_map, getElem?_range within]
      rfl
    rw [found, getD_some, bucketBound, if_pos within]
  · rw [bucketBound, if_neg within, le_antisymm few (not_lt.mp within)]
    decide +kernel

/-- The threshold cuts the bucket of a latency: they share the bucket, and its bound is above the
threshold. -/
def CutBy (threshold latency : U64) : Prop :=
  histogramIndex latency = histogramIndex threshold ∧ threshold < bucketBound threshold

theorem histogramIndex_le {lower upper : U64} (le : lower ≤ upper) :
    histogramIndex lower ≤ histogramIndex upper :=
  min_le_min_right _ (by rw [Nat.log2_eq_log_two, Nat.log2_eq_log_two]; exact Nat.log_mono_right le)

theorem two_pow_histogramIndex_le {value : U64} (positive : 0 < histogramIndex value) :
    2 ^ histogramIndex value ≤ value.val := by
  have log : histogramIndex value ≤ Nat.log2 value.val := min_le_left _ _
  have nonzero : value.val ≠ 0 := by
    intro zero
    rw [zero] at log
    exact absurd log (not_le.mpr positive)
  exact (Nat.pow_le_pow_right (by decide) log).trans (Nat.log2_self_le nonzero)

theorem bucketBound_congr {one other : U64} (same : histogramIndex one = histogramIndex other) :
    bucketBound one = bucketBound other := by
  unfold bucketBound
  rw [same]

/-- A latency within the threshold has its bound within it too, unless the threshold cuts its
bucket. -/
theorem bucketBound_le {threshold latency : U64} (within : latency ≤ threshold)
    (uncut : ¬ CutBy threshold latency) : bucketBound latency ≤ threshold := by
  rcases (histogramIndex_le within).eq_or_lt with same | lower
  · rw [bucketBound_congr same]
    exact not_lt.mp fun above => uncut ⟨same, above⟩
  · have few : histogramIndex threshold ≤ histogramBuckets - 1 := min_le_right _ _
    have least := two_pow_histogramIndex_le (Nat.zero_lt_of_lt lower)
    have next : 2 ^ (histogramIndex latency + 1) ≤ 2 ^ histogramIndex threshold :=
      Nat.pow_le_pow_right (by decide) lower
    have fits := threshold.isLt
    rw [bucketBound, if_pos (lower.trans_le few), Fin.le_def]
    exact (Nat.mod_le _ _).trans (by omega)

theorem aggregatePercentileUpper_eq {snapshot : AggregateSnapshot} {metric : HistogramMetric}
    {counts latencies : List U64}
    (listed : snapshot.histograms.lookup metric = some ⟨log2HistogramBoundaries, counts⟩)
    (recorded : Histogram.Recorded ⟨log2HistogramBoundaries, counts⟩ latencies)
    (few : latencies.length < 2 ^ 57) {percentile : U8} (positive : 0 < percentile)
    (most : percentile ≤ 100) :
    aggregatePercentileUpper snapshot metric percentile =
      (nearestRank latencies percentile.val).map bucketBound := by
  unfold aggregatePercentileUpper
  rw [listed, bind_some]
  by_cases empty : latencies = []
  · subst empty
    rw [recorded.percentileRange_nil]
    rfl
  · obtain ⟨value, ranked, range⟩ := recorded.percentileRange_eq few empty positive most
    rw [range, ranked, map_some, map_some]
    simp only [bucket_log2HistogramBoundaries]
    rw [bucketBound_eq]

theorem mem_of_nearestRank {latencies : List U64} {percent : Nat} {value : U64}
    (ranked : nearestRank latencies percent = some value) : value ∈ latencies :=
  (perm_insertionSort _ latencies).mem_iff.mp (mem_of_getElem? ranked)

/-- What a run leaves behind for the windows: an aggregated latency or a snapshot. -/
inductive WindowMark where
  | latency (latencyNs : U64)
  | snapshot
  deriving DecidableEq

namespace WindowMark

/-- The latency of a mark. -/
def latency? : WindowMark → Option U64
  | latency latencyNs => some latencyNs
  | snapshot => none

/-- The latencies since the last snapshot. -/
def window (marks : List WindowMark) : List U64 :=
  (marks.rtakeWhile fun mark => mark.latency?.isSome).filterMap latency?

/-- The latencies before the last snapshot. -/
def earlier (marks : List WindowMark) : List U64 :=
  (marks.rdropWhile fun mark => mark.latency?.isSome).filterMap latency?

theorem earlier_append_window (marks : List WindowMark) :
    earlier marks ++ window marks = marks.filterMap latency? := by
  rw [earlier, window, ← filterMap_append, rdropWhile_append_rtakeWhile]

theorem filterMap_latency (latencies : List U64) :
    [latencies.map latency].flatten.filterMap latency? = latencies := by
  rw [flatten_singleton, filterMap_map]
  exact filterMap_some

end WindowMark

namespace Agent

variable {cpus : Nat}

/-- The latencies that a step aggregates under a generation, and the snapshot that it takes. -/
def marksUnder (generation : U64) (agent : Agent cpus) (step : AgentStep cpus) :
    Option (List WindowMark) :=
  if agent.ended then none
  else
    match step with
    | .control _ _ => none
    | .probe probe =>
      if agent.kernel.config.generation = generation then
        some (((agent.kernel.processBlock probe).updates.filterMap
          (·.value? .totalLatency)).map .latency)
      else none
    | .snapshot readable _ =>
      if readable && agent.activeConfig.generation = generation then some [.snapshot] else none

/-- The number of completions that a step aggregates. -/
def completions (agent : Agent cpus) (step : AgentStep cpus) : Nat :=
  if agent.ended then 0
  else
    match step with
    | .probe probe => (agent.kernel.processBlock probe).completions
    | _ => 0

section Silent

variable {agent : Agent cpus} {line : String} {readable : Bool} {fails : Nat → Bool}

theorem silent_control (generation : U64) :
    (agent.marksUnder generation (.control line fails)).toList.flatten.filterMap
      WindowMark.latency? = [] := by
  simp [marksUnder]

theorem silent_snapshot (generation : U64) :
    (agent.marksUnder generation (.snapshot readable fails)).toList.flatten.filterMap
      WindowMark.latency? = [] := by
  simp only [marksUnder]
  split
  · rfl
  · split <;> rfl

theorem uncounted_control : agent.completions (.control line fails) = 0 := by
  simp [completions]

theorem uncounted_snapshot : agent.completions (.snapshot readable fails) = 0 := by
  simp [completions]

end Silent

/-- The value that the next snapshot hands to the controller, if there is one. -/
def observed (sessionId : String) (agent : Agent cpus) : Option U64 :=
  agent.adaptiveController.bind fun _ =>
    aggregatePercentileUpper (agent.nextSnapshot sessionId) .totalLatency 99

section Runs

variable (decode : String → Option CaptureControlCommand) (collectorPid : U32)
  (sessionId : String) (initial : Agent cpus)

/-- The marks of a run under a generation. -/
def marksIn (generation : U64) (steps : List (AgentStep cpus)) : List WindowMark :=
  (collect (step decode collectorPid sessionId) (marksUnder generation) initial steps).flatten

/-- The number of completions that a run aggregates. -/
def completionsIn (steps : List (AgentStep cpus)) : Nat :=
  total (step decode collectorPid sessionId) completions initial steps

/-- At every snapshot of a run there is a next generation for the controller to take. -/
def Unsaturated (steps : List (AgentStep cpus)) : Prop :=
  StepsMeet (fun history input => ∀ readable fails, input = .snapshot readable fails →
    (run (step decode collectorPid sessionId) initial history).activeConfig.generation.val <
      2 ^ 64 - 1) steps

/-- A run of the kernel that the agent has driven: it leads to the same kernel and generation, and
it has counted what the agent's steps aggregate. -/
structure Driven (history : List (AgentStep cpus)) (agent : Agent cpus)
    (captureSteps : List (CaptureStep cpus)) : Prop where
  reaches : run (Capture.step collectorPid sessionId) {} captureSteps = agent.capture
  increase : GenerationsIncrease collectorPid sessionId captureSteps
  latencies : ∀ generation,
    (updatesCounted collectorPid sessionId generation captureSteps).filterMap
        (·.value? .totalLatency) =
      (marksIn decode collectorPid sessionId initial generation history).filterMap
        WindowMark.latency?
  counted : countedIn collectorPid sessionId captureSteps =
    completionsIn decode collectorPid sessionId initial history

variable {decode collectorPid sessionId initial}

theorem marksIn_snoc (generation : U64) (history : List (AgentStep cpus))
    (input : AgentStep cpus) :
    marksIn decode collectorPid sessionId initial generation (history ++ [input]) =
      marksIn decode collectorPid sessionId initial generation history ++
        ((run (step decode collectorPid sessionId) initial history).marksUnder generation
          input).toList.flatten := by
  unfold marksIn
  rw [collect_snoc, flatten_append]

theorem completionsIn_snoc (history : List (AgentStep cpus)) (input : AgentStep cpus) :
    completionsIn decode collectorPid sessionId initial (history ++ [input]) =
      completionsIn decode collectorPid sessionId initial history +
        (run (step decode collectorPid sessionId) initial history).completions input :=
  total_snoc ..

variable {history : List (AgentStep cpus)} {agent after : Agent cpus}
  {captureSteps : List (CaptureStep cpus)} {input : AgentStep cpus}

section

variable (driven : Driven decode collectorPid sessionId initial history agent captureSteps)
  (reached : run (step decode collectorPid sessionId) initial history = agent)

include driven reached

section

variable
  (silent : ∀ generation,
      (agent.marksUnder generation input).toList.flatten.filterMap WindowMark.latency? = [])
  (uncounted : agent.completions input = 0)

include silent uncounted

theorem Driven.idle (same : after.capture = agent.capture) :
    Driven decode collectorPid sessionId initial (history ++ [input]) after captureSteps where
  reaches := driven.reaches.trans same.symm
  increase := driven.increase
  latencies generation := by
    rw [marksIn_snoc, reached, filterMap_append, silent, append_nil]
    exact driven.latencies generation
  counted := by
    rw [completionsIn_snoc, reached, uncounted]
    exact driven.counted

theorem Driven.apply {config : CaptureConfig} {fails : Nat → Bool}
    (newer : agent.activeConfig.generation < config.generation)
    (applied : after.capture = agent.capture.apply collectorPid config fails) :
    Driven decode collectorPid sessionId initial (history ++ [input]) after
      (captureSteps ++ [.apply config fails]) where
  reaches := by
    rw [run_snoc, driven.reaches]
    exact applied.symm
  increase := by
    refine driven.increase.snoc fun generation tried => ?_
    rw [driven.reaches, ← some.inj tried]
    exact newer
  latencies generation := by
    rw [marksIn_snoc, reached, filterMap_append, silent, append_nil,
      updatesCounted_of_none rfl]
    exact driven.latencies generation
  counted := by
    rw [completionsIn_snoc, reached, uncounted, ← driven.counted]
    exact total_snoc ..

end

theorem Driven.probe (running : agent.ended = false) (probe : BlockProbe cpus) :
    Driven decode collectorPid sessionId initial (history ++ [.probe probe])
      { agent with kernel := agent.kernel.afterProbe probe } (captureSteps ++ [.probe probe]) where
  reaches := by
    rw [run_snoc, driven.reaches]
    rfl
  increase := driven.increase.snoc nofun
  latencies generation := by
    rw [marksIn_snoc, reached, filterMap_append, updatesCounted_snoc, filterMap_append,
      driven.latencies, driven.reaches]
    refine congrArg _ ?_
    have goesOn : ¬ agent.ended = true := by simp [running]
    by_cases same : agent.kernel.config.generation = generation
    · have updates : agent.capture.updatesUnder generation (.probe probe) =
          some (agent.kernel.processBlock probe).updates := if_pos same
      have marks : agent.marksUnder generation (.probe probe) =
          some (((agent.kernel.processBlock probe).updates.filterMap
            (·.value? .totalLatency)).map .latency) := (if_neg goesOn).trans (if_pos same)
      rw [updates, marks, toList_some, toList_some, flatten_singleton,
        WindowMark.filterMap_latency]
    · have updates : agent.capture.updatesUnder generation (.probe probe) = none := if_neg same
      have marks : agent.marksUnder generation (.probe probe) = none :=
        (if_neg goesOn).trans (if_neg same)
      rw [updates, marks]
      rfl
  counted := by
    rw [completionsIn_snoc, reached, ← driven.counted]
    unfold countedIn
    rw [total_snoc, driven.reaches]
    simp only [completions, running]
    rfl

end

variable {initialFails : Nat → Bool}

section

variable (started : start collectorPid initialFails = .ok initial) (steps : List (AgentStep cpus))
  (unsaturated : Unsaturated decode collectorPid sessionId initial steps)

include started unsaturated

theorem exists_driven :
    ∃ captureSteps, Driven decode collectorPid sessionId initial steps
      (run (step decode collectorPid sessionId) initial steps) captureSteps := by
  refine run_induction_of_stepsMeet (fun history (agent : Agent cpus) => ∃ captureSteps,
    Driven decode collectorPid sessionId initial history agent captureSteps)
    ⟨[.apply defaultCaptureConfig initialFails], (capture_start started).symm,
      (stepsMeet_nil _).snoc fun _ tried => some.inj tried ▸ Fin.zero_lt_one, fun _ => rfl, rfl⟩
    (fun history input room before => ?_) steps unsaturated
  obtain ⟨captureSteps, driven⟩ := before
  generalize reached : run (step decode collectorPid sessionId) initial history = agent
    at driven room ⊢
  have stepped := stepped_step decode collectorPid sessionId agent input
  generalize agent.step decode collectorPid sessionId input = after at stepped ⊢
  cases stepped with
  | ended ended =>
    refine ⟨captureSteps, driven.idle reached (fun _ => ?_) ?_ rfl⟩
    · simp [marksUnder, ended]
    · simp [completions, ended]
  | dropped => exact ⟨captureSteps, driven.idle reached silent_control uncounted_control rfl⟩
  | handled handled =>
    rcases handled.capture with same | ⟨newer, applied⟩
    · exact ⟨captureSteps, driven.idle reached silent_control uncounted_control same⟩
    · exact ⟨_, driven.apply reached silent_control uncounted_control newer applied⟩
  | probed running => exact ⟨_, driven.probe reached running _⟩
  | snapped followed =>
    rcases followed.capture with same | ⟨automatic, next, applied⟩
    · exact ⟨captureSteps, driven.idle reached silent_snapshot uncounted_snapshot same⟩
    · refine ⟨_, driven.apply reached silent_snapshot uncounted_snapshot ?_ applied⟩
      have later := room _ _ rfl
      rw [next, Fin.lt_def, Word.saturatingAdd_of_lt _ _ (by omega)]
      exact Nat.lt_succ_self _

theorem observed_run (few : completionsIn decode collectorPid sessionId initial steps < 2 ^ 57) :
    let agent := run (step decode collectorPid sessionId) initial steps
    agent.observed sessionId = agent.adaptiveController.bind fun _ =>
      (nearestRank ((marksIn decode collectorPid sessionId initial agent.activeConfig.generation
        steps).filterMap WindowMark.latency?) 99).map bucketBound := by
  intro agent
  obtain ⟨captureSteps, driven⟩ := exists_driven started steps unsaturated
  rw [← driven.counted] at few
  have most : countedIn collectorPid sessionId captureSteps < 2 ^ 64 := few.trans (by decide)
  have kernel : (run (Capture.step collectorPid sessionId) {} captureSteps).kernel =
      agent.kernel := congrArg Capture.kernel driven.reaches
  have generation : (run (Capture.step collectorPid sessionId) {} captureSteps).generation =
      agent.activeConfig.generation := congrArg Capture.generation driven.reaches
  have bound := completions_updatesCounted_le collectorPid sessionId agent.activeConfig.generation
    captureSteps
  have counted (index : Fin histogramBuckets) :
      agent.kernel.countIn (AggregateCounter.bucket .totalLatency index)
          agent.activeConfig.generation =
        (AggregateCounter.bucket .totalLatency index).amounts
          (updatesCounted collectorPid sessionId agent.activeConfig.generation captureSteps) := by
    have gathered := (gathered_run (AggregateCounter.bucket_amounts_le .totalLatency index)
      captureSteps driven.increase most).counted
    rw [kernel, generation] at gathered
    exact gathered
  have wellFormed : agent.kernel.WellFormed :=
    kernel ▸ wellFormed_run collectorPid sessionId captureSteps
  have recorded := BlockKernel.recorded_merged wellFormed counted (bound.trans_lt most)
  have length : ((updatesCounted collectorPid sessionId agent.activeConfig.generation
      captureSteps).filterMap (·.value? .totalLatency)).length < 2 ^ 57 := by
    rw [length_filterMap_eq_countP]
    simp only [AggregateUpdate.isSome_value?]
    exact bound.trans_lt few
  rw [← driven.latencies]
  unfold observed
  rw [aggregatePercentileUpper_eq rfl recorded length (by decide) (by decide)]
  rfl

end

end Runs

end Agent

/-- In every run of an agent, the value that a snapshot hands to the controller is the bound of the
bucket of the 99th percentile of the completions that were aggregated since the last snapshot of
the same generation, if none of the generation were aggregated before that. A window of latencies
within the threshold is then not over it, if the threshold cuts the bucket of none of them. -/
theorem observed_is_percentile_of_window {cpus : Nat}
    (decode : String → Option CaptureControlCommand) (collectorPid : U32) (sessionId : String)
    {initial : Agent cpus} {initialFails : Nat → Bool}
    (started : Agent.start collectorPid initialFails = .ok initial)
    (steps : List (AgentStep cpus))
    (unsaturated : Agent.Unsaturated decode collectorPid sessionId initial steps)
    (few : Agent.completionsIn decode collectorPid sessionId initial steps < 2 ^ 57) :
    let agent := run (Agent.step decode collectorPid sessionId) initial steps
    let marks := Agent.marksIn decode collectorPid sessionId initial
      agent.activeConfig.generation steps
    WindowMark.earlier marks = [] →
    (agent.observed sessionId = agent.adaptiveController.bind fun _ =>
        (nearestRank (WindowMark.window marks) 99).map bucketBound) ∧
      ∀ controller ∈ agent.adaptiveController,
        (∀ latency ∈ WindowMark.window marks, latency ≤ controller.policy.threshold) →
        (∀ latency ∈ WindowMark.window marks, ¬ CutBy controller.policy.threshold latency) →
        ∀ observed ∈ agent.observed sessionId, observed ≤ controller.policy.threshold := by
  intro agent marks fresh
  have window : marks.filterMap WindowMark.latency? = WindowMark.window marks := by
    rw [← WindowMark.earlier_append_window, fresh, nil_append]
  have value : agent.observed sessionId = agent.adaptiveController.bind fun _ =>
      (nearestRank (WindowMark.window marks) 99).map bucketBound := by
    rw [← window]
    exact Agent.observed_run started steps unsaturated few
  refine ⟨value, fun controller isController within uncut observed isObserved => ?_⟩
  rw [value, mem_def.mp isController, bind_some] at isObserved
  obtain ⟨latency, ranked, rfl⟩ := map_eq_some_iff.mp isObserved
  have member := mem_of_nearestRank ranked
  exact bucketBound_le (within latency member) (uncut latency member)

theorem observed_is_percentile_of_window_first :
    ∃ initial : Agent 1, Agent.start 7 (fun _ => false) = .ok initial ∧
      let steps : List (AgentStep 1) :=
        [.probe (probeBy .issue 10 100), .probe (probeBy .complete 0 20_000_100)]
      let agent := run (Agent.step (fun _ => none) 7 "s") initial steps
      let marks := Agent.marksIn (fun _ => none) 7 "s" initial agent.activeConfig.generation steps
      WindowMark.window marks = [20_000_000] ∧
        agent.observed "s" = agent.adaptiveController.bind fun _ =>
          (nearestRank (WindowMark.window marks) 99).map bucketBound := by
  refine ⟨_, rfl, by decide +kernel, ?_⟩
  have started : Agent.start 7 (fun _ => false) = .ok (_ : Agent 1) := rfl
  refine (observed_is_percentile_of_window (fun _ => none) 7 "s" started
    [.probe (probeBy .issue 10 100), .probe (probeBy .complete 0 20_000_100)]
    (((stepsMeet_nil _).snoc nofun).snoc nofun) ?_ (by decide +kernel)).1
  refine Nat.lt_of_le_of_lt (m := 1) ?_ (by decide)
  decide +kernel

/-- One slow request completes. Nothing completes between the first snapshot and the third, which
still observes the slow request and makes the controller go deep. -/
theorem slow_request_is_observed_again :
    ∃ initial : Agent 1, Agent.start 7 (fun _ => false) = .ok initial ∧
      let steps : List (AgentStep 1) :=
        [.probe (probeBy .issue 10 100), .probe (probeBy .complete 0 20_000_100),
          .snapshot true fun _ => false, .snapshot true fun _ => false]
      let agent := run (Agent.step (fun _ => none) 7 "s") initial steps
      let marks := Agent.marksIn (fun _ => none) 7 "s" initial agent.activeConfig.generation steps
      WindowMark.window marks = [] ∧ agent.observed "s" = some (bucketBound 20_000_000) ∧
        (agent.step (fun _ => none) 7 "s" (.snapshot true fun _ => false)).adaptiveController.map
          (·.state) = some .deep := by
  refine ⟨_, rfl, ?_⟩
  decide +kernel

end EbpfStudio
