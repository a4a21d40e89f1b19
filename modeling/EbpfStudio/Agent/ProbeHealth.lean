/-
This file models how the agent counts the paired events of its probes, and compares the
counts with the spans that the host makes of the same events.

Agent and host pair the begin and the end of a stage in tables of their own. The host keys a
stage by its layer, its id and its name; the agent leaves the name out, which for events of the
kernel is determined by the layer. `StagesAgree` says that the two tables hold the same times.
It is kept by an event of each phase if the two give up and remember the same stages
(`PairsStagesAlike`, a condition on the tables of the host before the event). An end then is
paired for the agent exactly if the host makes a span of it, and the counts are equal after
every stream of fewer than `2 ^ 64` events.
-/

import EbpfStudio.Kernel.RoundTrip
import EbpfStudio.Protocol.Pairing

namespace EbpfStudio

open Run List Option Table Bool

/-- What is read of a pipeline event. -/
structure PipelineEvent where
  tsNs : U64
  pipelineLayer : U8
  pipelinePhase : U8
  requestId : U64
  sector : U64
  bytes : U32
  operation : U8
  reserved : U8
  status : Int
  pid : U32
  tid : U32
  correlationExact : U8

def layerOfCode (code : U8) : Option PipelineLayer :=
  match code.val with
  | 1 => some .filesystem
  | 2 => some .scsi
  | 3 => some .ufs
  | 4 => some .uicContext
  | 5 => some .schedulerContext
  | _ => none

def phaseOfCode (code : U8) : Option PipelinePhase :=
  match code.val with
  | 1 => some .beginPhase
  | 2 => some .endPhase
  | 3 => some .instant
  | _ => none

def stageName : PipelineLayer → String
  | .filesystem => "Filesystem data I/O"
  | .scsi => "SCSI command"
  | .ufs => "UFS command"
  | .schedulerContext => "Scheduler context switch"
  | .uicContext => "UIC / link context"
  | _ => "Storage stage"

def parsePipelineEvent (salt : U64) (event : PipelineEvent) : Option PipelineObservation := do
  let layer ← layerOfCode event.pipelineLayer
  let phase ← phaseOfCode event.pipelinePhase
  some
    { tsNs := event.tsNs
      operation := none
      endTsNs := none
      phase := phase
      layer := layer
      correlationId := none
      stageKey := if event.requestId = 0 then none else some (opaqueKey event.requestId salt)
      sector := if event.sector = 0 then none else some event.sector
      bytes := if event.bytes = 0 then none else some event.bytes
      opcode := if event.reserved.val / 2 % 2 = 0 then none
        else some (Word.ofNat 32 event.operation.val)
      status := if event.reserved.val % 2 = 0 then none else some event.status
      pid := event.pid
      tid := event.tid
      name := if layer = .filesystem ∧ event.requestId = 0 then "Filesystem context"
        else stageName layer
      confidence :=
        if layer = .schedulerContext ∨ layer = .uicContext ∨ event.requestId = 0 then .contextOnly
        else if event.correlationExact = 0 then .probable
        else .exact }

/-- The counters of one probe. They wrap, as additions of the agent do. -/
structure ProbeHealth where
  emitted : U64 := 0
  paired : U64 := 0
  unpaired : U64 := 0

def probeName : StorageEvent → String
  | .blockInsert _ => "block.insert"
  | .blockIssue _ => "block.issue"
  | .blockComplete _ => "block.complete"
  | .observedBlockCompletion _ => "perfetto.observed_complete"
  | .schedulerIoWait _ => "scheduler.iowait"
  | .fileIo _ => "syscall.file_io"
  | .pipeline observation =>
    match observation.layer with
    | .filesystem => "filesystem.pipeline"
    | .scsi => "scsi.pipeline"
    | .ufs => "ufs.pipeline"
    | .schedulerContext => "scheduler.context"
    | .uicContext => "uic.context"
    | _ => "storage.pipeline"
  | .requestOrigin _ => "graph.request_origin"
  | .node _ => "graph.node"
  | .edge _ => "graph.edge"

/-- The health of the probes, and the times of the stages that wait or are ambiguous. -/
structure ProbeStages where
  health : Table String ProbeHealth := ∅
  pending : Table (PipelineLayer × U64) U64 := ∅
  ambiguous : Table (PipelineLayer × U64) U64 := ∅
  expired : U64 := 0
  reused : U64 := 0

namespace ProbeStages

/-- Change the counters of one probe. -/
def count (stages : ProbeStages) (name : String) (change : ProbeHealth → ProbeHealth) :
    ProbeStages :=
  { stages with health := stages.health.alter name {} change }

def countUnpaired (stages : ProbeStages) (name : String) : ProbeStages :=
  stages.count name fun item => { item with unpaired := item.unpaired + 1 }

/-- Pair an event of a stage: a begin waits unless the stage waits already or is ambiguous, and
an end takes the begin that waits. -/
def pair (stages : ProbeStages) (name : String) (observation : PipelineObservation)
    (key : PipelineLayer × U64) : ProbeStages :=
  match observation.phase with
  | .beginPhase =>
    if stages.pending.containsKey key || stages.ambiguous.containsKey key then
      ({ stages with
        pending := stages.pending.erase key
        ambiguous := stages.ambiguous.insert key observation.tsNs
        reused := stages.reused + 1 } : ProbeStages).countUnpaired name
    else { stages with pending := stages.pending.insert key observation.tsNs }
  | .endPhase =>
    if stages.ambiguous.containsKey key then
      ({ stages with
        ambiguous := stages.ambiguous.erase key
        pending := stages.pending.erase key } : ProbeStages).countUnpaired name
    else if stages.pending.containsKey key then
      ({ stages with pending := stages.pending.erase key } : ProbeStages).count name fun item =>
        { item with paired := item.paired + 1 }
    else stages.countUnpaired name
  | .instant | .span => stages

/-- Forget the stages that are older than the time to live. -/
def sweep (stages : ProbeStages) (newest : U64) : ProbeStages :=
  let keep := fun (_ : PipelineLayer × U64) (time : U64) =>
    decide (newest.saturatingSub time ≤ stageTtlNs)
  { stages with
    pending := stages.pending.retain keep
    ambiguous := stages.ambiguous.retain keep
    expired := stages.expired + Word.ofNat 64
      (stages.pending.size - (stages.pending.retain keep).size +
        (stages.ambiguous.size - (stages.ambiguous.retain keep).size)) }

def updateProbeHealth (stages : ProbeStages) (event : StorageEvent) : ProbeStages :=
  let name := probeName event
  let stages := stages.count name fun item => { item with emitted := item.emitted + 1 }
  match event with
  | .pipeline observation =>
    match observation.stageKey.or observation.correlationId with
    | none => stages
    | some id => (stages.pair name observation (observation.layer, id)).sweep observation.tsNs
  | _ => stages

/-- The paired events of all probes together. -/
def paired (stages : ProbeStages) : Nat := stages.health.sum (·.paired.val)

end ProbeStages

/-- The span that the host makes of an event. -/
def synthesised (engine : AnalysisEngine) (observation : PipelineObservation) :
    Option PipelineObservation :=
  (engine.taken observation).2.filter (·.phase = .span)

/-- No stage that the host remembers is older than the time to live. -/
def NothingStale (stages : StagePairing) (newest : U64) : Prop :=
  (∀ key start, stages.pendingPipeline.lookup key = some start →
    newest.saturatingSub start.tsNs ≤ stageTtlNs) ∧
  ∀ key time, stages.ambiguousPipeline.lookup key = some time →
    newest.saturatingSub time ≤ stageTtlNs

/-- An event at which agent and host treat their stages alike. With a key, it is the newest event,
a begin is of a stage that is not ambiguous, and an end is not before the begin that waits. Where
only one of the two sweeps, there is nothing to sweep. -/
def PairsStagesAlike (stages : StagePairing) (newest : U64) (observation : PipelineObservation) :
    Prop :=
  match stageOf observation with
  | none => NothingStale stages newest
  | some key => newest = observation.tsNs ∧
    (observation.phase = .beginPhase → stages.ambiguousPipeline.lookup key = none) ∧
    (observation.phase = .endPhase →
      (∀ start, stages.pendingPipeline.lookup key = some start →
        start.tsNs ≤ observation.tsNs) ∧
      ((stages.ambiguousPipeline.lookup key).isSome = true → NothingStale stages newest))

/-- The agent has the times of what the host has for every stage. -/
structure StagesAgree (agent : ProbeStages) (host : StagePairing) : Prop where
  pending : ∀ layer id, agent.pending.lookup (layer, id) =
    (host.pendingPipeline.lookup (layer, id, stageName layer)).map (·.tsNs)
  ambiguous : ∀ layer id, agent.ambiguous.lookup (layer, id) =
    host.ambiguousPipeline.lookup (layer, id, stageName layer)

/-- What every event that was parsed from the kernel satisfies. -/
structure FromKernel (observation : PipelineObservation) : Prop where
  uncorrelated : observation.correlationId = none
  named : ∀ id, observation.stageKey = some id → observation.name = stageName observation.layer
  unspanned : observation.phase ≠ .span
  instantaneous : observation.endTsNs = none

theorem fromKernel_parse {salt : U64} {event : PipelineEvent} {observation : PipelineObservation}
    (parsed : parsePipelineEvent salt event = some observation) : FromKernel observation := by
  obtain ⟨layer, -, parsed⟩ := bind_eq_some_iff.mp parsed
  obtain ⟨phase, known, parsed⟩ := bind_eq_some_iff.mp parsed
  cases parsed
  refine ⟨rfl, fun id keyed => ?_, fun span => ?_, rfl⟩
  · have nonzero : event.requestId ≠ 0 := fun zero => by simp [zero] at keyed
    simp [nonzero]
  · cases (show phase = .span from span)
    unfold phaseOfCode at known
    split at known <;> cases known

section Agree

variable {agent : ProbeStages} {host : StagePairing} {newest : U64}

theorem StagesAgree.sweep (agree : StagesAgree agent host) :
    StagesAgree (agent.sweep newest) (host.sweep newest) := by
  unfold ProbeStages.sweep StagePairing.sweep
  refine ⟨fun layer id => ?_, fun layer id => ?_⟩
  · rw [lookup_retain, lookup_retain, agree.pending]
    cases host.pendingPipeline.lookup (layer, id, stageName layer) with
    | none => rfl
    | some start =>
      simp only [map_some, filter_some]
      split <;> rfl
  · rw [lookup_retain, lookup_retain, agree.ambiguous]

theorem lookup_sweep_of_fresh (fresh : NothingStale host newest) (key : StageKey) :
    (host.sweep newest).pendingPipeline.lookup key = host.pendingPipeline.lookup key ∧
      (host.sweep newest).ambiguousPipeline.lookup key = host.ambiguousPipeline.lookup key := by
  unfold StagePairing.sweep
  rw [lookup_retain, lookup_retain]
  constructor
  · cases found : host.pendingPipeline.lookup key with
    | none => rfl
    | some start => rw [filter_some, if_pos (decide_eq_true (fresh.1 key start found))]
  · cases found : host.ambiguousPipeline.lookup key with
    | none => rfl
    | some time => rw [filter_some, if_pos (decide_eq_true (fresh.2 key time found))]

theorem StagesAgree.sweep_host (agree : StagesAgree agent host)
    (fresh : NothingStale host newest) : StagesAgree agent (host.sweep newest) where
  pending layer id := by rw [(lookup_sweep_of_fresh fresh _).1, agree.pending]
  ambiguous layer id := by rw [(lookup_sweep_of_fresh fresh _).2, agree.ambiguous]

theorem StagesAgree.sweep_agent (agree : StagesAgree agent host)
    (fresh : NothingStale host newest) : StagesAgree (agent.sweep newest) host where
  pending layer id := by rw [agree.sweep.pending, (lookup_sweep_of_fresh fresh _).1]
  ambiguous layer id := by rw [agree.sweep.ambiguous, (lookup_sweep_of_fresh fresh _).2]

theorem NothingStale.clear (fresh : NothingStale host newest) (key : StageKey) :
    NothingStale (host.clear key) newest := by
  unfold StagePairing.clear
  refine ⟨fun other start found => ?_, fun other time found => ?_⟩
  · rw [lookup_erase_eq] at found
    exact fresh.1 other start (ite_none_left_eq_some.mp found).2
  · rw [lookup_erase_eq] at found
    exact fresh.2 other time (ite_none_left_eq_some.mp found).2

theorem stage_eq_iff {layer other : PipelineLayer} {id otherId : U64} :
    (other, otherId, stageName other) = (layer, id, stageName layer) ↔
      (other, otherId) = (layer, id) := by
  simp only [Prod.mk.injEq]
  exact ⟨fun same => ⟨same.1, same.2.1⟩, fun same => ⟨same.1, same.2, congrArg _ same.1⟩⟩

section Counts

variable (agent : ProbeStages) (name : String)

theorem paired_count {change : ProbeHealth → ProbeHealth}
    (same : ∀ item, (change item).paired = item.paired) :
    (agent.count name change).paired = agent.paired := by
  refine (sum_alter_of (fun item : ProbeHealth => item.paired.val) agent.health name rfl ?_).trans
    (Nat.add_zero _)
  exact congrArg Fin.val (same _)

theorem paired_countUnpaired : (agent.countUnpaired name).paired = agent.paired :=
  paired_count agent name fun _ => rfl

/-- A paired event is counted, unless the counter is at its end. -/
theorem paired_countPaired (few : agent.paired + 1 < 2 ^ 64) :
    (agent.count name fun item => { item with paired := item.paired + 1 }).paired =
      agent.paired + 1 := by
  let measure := fun item : ProbeHealth => item.paired.val
  refine sum_alter_of measure agent.health name rfl ?_
  have held : measure ((agent.health.lookup name).getD {}) ≤ agent.paired :=
    (measure_getD measure agent.health name rfl).le.trans
      (elim_lookup_le_sum measure agent.health name)
  exact Nat.mod_eq_of_lt ((Nat.succ_le_succ held).trans_lt few)

end Counts

variable {observation : PipelineObservation} {id : U64}

theorem StagesAgree.start (agree : StagesAgree agent host) (name : String)
    (phase : observation.phase = .beginPhase)
    (clear : host.ambiguousPipeline.lookup (observation.layer, id, stageName observation.layer) =
      none) :
    StagesAgree (agent.pair name observation (observation.layer, id))
        (host.start (observation.layer, id, stageName observation.layer) observation) ∧
      (agent.pair name observation (observation.layer, id)).paired = agent.paired := by
  unfold ProbeStages.pair StagePairing.start containsKey
  rw [phase, agree.pending, agree.ambiguous, clear]
  cases host.pendingPipeline.lookup (observation.layer, id, stageName observation.layer) with
  | none =>
    refine ⟨⟨fun layer other => ?_, agree.ambiguous⟩, rfl⟩
    simp only [Option.map_none, Option.isSome_none, Bool.or_false, Bool.false_eq_true, if_false,
      Table.lookup_insert_eq, stage_eq_iff]
    split
    · rfl
    · exact agree.pending layer other
  | some waiting =>
    refine ⟨⟨fun layer other => ?_, fun layer other => ?_⟩,
      paired_countUnpaired { agent with
        pending := agent.pending.erase (observation.layer, id)
        ambiguous := agent.ambiguous.insert (observation.layer, id) observation.tsNs
        reused := agent.reused + 1 } name⟩
    · simp only [Option.map_some, Option.isSome_some, Bool.true_or, if_true,
        ProbeStages.countUnpaired, ProbeStages.count, Table.lookup_erase_eq, stage_eq_iff]
      split
      · rfl
      · exact agree.pending layer other
    · simp only [Option.map_some, Option.isSome_some, Bool.true_or, if_true,
        ProbeStages.countUnpaired, ProbeStages.count, Table.lookup_insert_eq, stage_eq_iff]
      split
      · rfl
      · exact agree.ambiguous layer other

theorem StagesAgree.erase (agree : StagesAgree agent host) (layer : PipelineLayer) (id : U64) :
    StagesAgree { agent with pending := agent.pending.erase (layer, id) }
      (host.finish (layer, id, stageName layer)) := by
  refine ⟨fun other otherId => ?_, agree.ambiguous⟩
  unfold StagePairing.finish
  simp only [lookup_erase_eq, stage_eq_iff]
  split
  · rfl
  · exact agree.pending other otherId

theorem StagesAgree.eraseBoth (agree : StagesAgree agent host) (layer : PipelineLayer) (id : U64) :
    StagesAgree { agent with
        ambiguous := agent.ambiguous.erase (layer, id)
        pending := agent.pending.erase (layer, id) }
      (host.clear (layer, id, stageName layer)) := by
  refine ⟨(agree.erase layer id).pending, fun other otherId => ?_⟩
  unfold StagePairing.clear
  simp only [lookup_erase_eq, stage_eq_iff]
  split
  · rfl
  · exact agree.ambiguous other otherId

/-- What both tables and the count are after an event, for an agent that has counted the event as
emitted. -/
structure TakenAlike (before after : ProbeStages)
    (taken : StagePairing × Option PipelineObservation) : Prop where
  agree : StagesAgree after taken.1
  paired : after.paired = before.paired + (taken.2.filter (·.phase = .span)).toList.length

section Take

variable (agree : StagesAgree agent host) (kernel : FromKernel observation) (name : String)

include agree

theorem StagesAgree.take_begin (stage : stageOf observation =
      some (observation.layer, id, stageName observation.layer))
    (phase : observation.phase = .beginPhase)
    (clear : host.ambiguousPipeline.lookup (observation.layer, id, stageName observation.layer) =
      none) :
    TakenAlike agent ((agent.pair name observation (observation.layer, id)).sweep newest)
      (host.take newest observation) := by
  have taken : host.take newest observation = ((host.start
      (observation.layer, id, stageName observation.layer) observation).sweep newest, none) := by
    unfold StagePairing.take
    rw [stage, phase]
  obtain ⟨started, same⟩ := agree.start name phase clear
  rw [taken]
  exact ⟨started.sweep, same⟩

theorem StagesAgree.take_end (stage : stageOf observation =
      some (observation.layer, id, stageName observation.layer))
    (phase : observation.phase = .endPhase) (few : agent.paired + 1 < 2 ^ 64)
    (ordered : ∀ start, host.pendingPipeline.lookup (observation.layer, id,
      stageName observation.layer) = some start → start.tsNs ≤ observation.tsNs)
    (fresh : (host.ambiguousPipeline.lookup (observation.layer, id,
      stageName observation.layer)).isSome = true → NothingStale host newest) :
    TakenAlike agent ((agent.pair name observation (observation.layer, id)).sweep newest)
      (host.take newest observation) := by
  unfold ProbeStages.pair StagePairing.take StagePairing.pairedBegin Table.containsKey
  rw [stage, phase]
  dsimp only
  rw [agree.ambiguous, agree.pending]
  by_cases twice : (host.ambiguousPipeline.lookup
      (observation.layer, id, stageName observation.layer)).isSome = true
  · -- here the host returns before its sweep
    rw [if_pos twice, if_pos twice]
    refine ⟨?_, paired_countUnpaired _ _⟩
    have erased := agree.eraseBoth observation.layer id
    exact StagesAgree.sweep_agent ⟨erased.pending, erased.ambiguous⟩ ((fresh twice).clear _)
  rw [if_neg twice, if_neg twice]
  have erased := agree.erase observation.layer id
  cases waits : host.pendingPipeline.lookup
      (observation.layer, id, stageName observation.layer) with
  | some start =>
    have spans : (Option.filter (·.phase = .span) ((Option.filter (fun start =>
        decide (start.tsNs ≤ observation.tsNs)) (some start)).map fun start =>
          pairedSpan start observation)).toList.length = 1 := by
      simp [Option.filter_some, ordered start waits, pairedSpan]
    refine ⟨StagesAgree.sweep ⟨erased.pending, erased.ambiguous⟩, ?_⟩
    rw [spans]
    exact paired_countPaired { agent with
      pending := agent.pending.erase (observation.layer, id) } name few
  | none =>
    refine ⟨StagesAgree.sweep ⟨fun layer other => ?_, erased.ambiguous⟩, paired_countUnpaired _ _⟩
    show agent.pending.lookup (layer, other) = _
    unfold StagePairing.finish
    dsimp only
    rw [agree.pending, Table.lookup_erase_eq]
    split
    · rename_i same
      cases stage_eq_iff.mp same
      rw [waits]
    · rfl

include kernel

theorem StagesAgree.take_instant (keyed : (stageOf observation).isSome = true)
    (phase : observation.phase = .instant) :
    TakenAlike agent ((agent.pair name observation (observation.layer, id)).sweep newest)
      (host.take newest observation) := by
  have taken : host.take newest observation = (host.sweep newest, some observation) := by
    unfold StagePairing.take
    obtain ⟨key, stage⟩ := isSome_iff_exists.mp keyed
    rw [stage, phase]
  rw [taken]
  unfold ProbeStages.pair
  rw [phase]
  refine ⟨agree.sweep, ?_⟩
  simp [Option.filter_some, kernel.unspanned]
  rfl

theorem StagesAgree.take_unkeyed (stage : stageOf observation = none)
    (fresh : NothingStale host newest) : TakenAlike agent agent (host.take newest observation) := by
  have taken : host.take newest observation = (host.sweep newest, some observation) := by
    unfold StagePairing.take
    rw [stage]
    cases observation.phase <;> rfl
  rw [taken]
  refine ⟨agree.sweep_host fresh, ?_⟩
  simp [Option.filter_some, kernel.unspanned]

theorem StagesAgree.take (few : agent.paired + 1 < 2 ^ 64)
    (alike : PairsStagesAlike host newest observation) :
    TakenAlike agent (agent.updateProbeHealth (.pipeline observation))
      (host.take newest observation) := by
  have emitted : (agent.count (probeName (.pipeline observation)) fun item =>
      { item with emitted := item.emitted + 1 }).paired = agent.paired :=
    paired_count agent _ fun _ => rfl
  have counted : StagesAgree (agent.count (probeName (.pipeline observation)) fun item =>
      { item with emitted := item.emitted + 1 }) host := ⟨agree.pending, agree.ambiguous⟩
  unfold ProbeStages.updateProbeHealth
  dsimp only
  generalize agent.count (probeName (.pipeline observation)) (fun item =>
    { item with emitted := item.emitted + 1 }) = agent at emitted counted
  suffices taken : TakenAlike agent _ (host.take newest observation) from
    ⟨taken.agree, emitted ▸ taken.paired⟩
  rw [← emitted] at few
  rw [kernel.uncorrelated, Option.or_none]
  have stage : stageOf observation = observation.stageKey.map fun id =>
      (observation.layer, id, observation.name) := by
    unfold stageOf
    rw [kernel.uncorrelated]
    cases observation.stageKey <;> rfl
  unfold PairsStagesAlike at alike
  cases keyed : observation.stageKey with
  | none =>
    rw [keyed] at stage
    rw [show stageOf observation = none from stage] at alike
    exact counted.take_unkeyed kernel stage alike
  | some id =>
    rw [keyed, Option.map_some, kernel.named id keyed] at stage
    rw [stage] at alike
    obtain ⟨rfl, begins, ends⟩ := alike
    cases phase : observation.phase with
    | beginPhase => exact counted.take_begin _ stage phase (begins phase)
    | endPhase => exact counted.take_end _ stage phase few (ends phase).1 (ends phase).2
    | instant => exact counted.take_instant kernel _ (by rw [stage]; rfl) phase
    | span => exact absurd phase kernel.unspanned

end Take

end Agree

/-- The events that the agent parses out of what the kernel reports. -/
def observationsOf (salt : U64) (events : List PipelineEvent) : List PipelineObservation :=
  events.filterMap (parsePipelineEvent salt)

/-- The host after a stream of pipeline events. -/
def hostAfter (observations : List PipelineObservation) : AnalysisEngine :=
  run (fun engine observation => engine.step (.pipeline observation)) .new observations

/-- The agent after a stream of pipeline events. -/
def agentAfter (observations : List PipelineObservation) : ProbeStages :=
  run (fun stages observation => stages.updateProbeHealth (.pipeline observation)) {} observations

/-- The spans that the host makes of a stream of pipeline events. -/
def synthesisedSpans (observations : List PipelineObservation) : List PipelineObservation :=
  collect (fun engine observation => engine.step (.pipeline observation)) synthesised .new
    observations

/-- The newest time of what the host has seen and of an event that comes. -/
def newestWith (engine : AnalysisEngine) (observation : PipelineObservation) : U64 :=
  engine.lastTsNs.elim observation.tsNs fun seen => max seen observation.tsNs

theorem taken_of_kernel (engine : AnalysisEngine) {observation : PipelineObservation}
    (kernel : FromKernel observation) : engine.taken observation =
      engine.stages.take (newestWith engine observation) observation := by
  unfold AnalysisEngine.taken AnalysisEngine.clocked
  rw [kernel.instantaneous]
  rfl

/-- Agent and host treat an event alike after the events before it. -/
def AlikeAt (history : List PipelineObservation) (observation : PipelineObservation) : Prop :=
  PairsStagesAlike (hostAfter history).stages (newestWith (hostAfter history) observation)
    observation

theorem length_synthesisedSpans_le (observations : List PipelineObservation) :
    (synthesisedSpans observations).length ≤ observations.length := by
  induction observations using reverseRecOn with
  | nil => exact le_rfl
  | append_singleton history observation hypothesis =>
    unfold synthesisedSpans at hypothesis ⊢
    rw [collect_snoc, length_append, length_append]
    exact Nat.add_le_add hypothesis (Option.length_toList_le)

/-- In every stream of fewer than `2 ^ 64` pipeline events that agent and host treat alike, the
agent counts as many paired events as the host makes spans. -/
theorem probe_health_counts_spans (salt : U64) (events : List PipelineEvent)
    (few : events.length < 2 ^ 64) (alike : StepsMeet AlikeAt (observationsOf salt events)) :
    (agentAfter (observationsOf salt events)).paired =
      (synthesisedSpans (observationsOf salt events)).length := by
  have kernel : ∀ observation ∈ observationsOf salt events, FromKernel observation :=
    fun observation member => by
      obtain ⟨event, -, parsed⟩ := mem_filterMap.mp member
      exact fromKernel_parse parsed
  replace few : (observationsOf salt events).length < 2 ^ 64 :=
    (length_filterMap_le _ _).trans_lt few
  generalize observationsOf salt events = observations at alike kernel few
  suffices both : StagesAgree (agentAfter observations) (hostAfter observations).stages ∧
      (agentAfter observations).paired = (synthesisedSpans observations).length from both.2
  induction observations using reverseRecOn with
  | nil => exact ⟨⟨fun _ _ => rfl, fun _ _ => rfl⟩, rfl⟩
  | append_singleton history observation hypothesis =>
    rw [length_append, length_singleton] at few
    obtain ⟨agree, same⟩ := hypothesis alike.of_append
      (fun other member => kernel other (mem_append_left _ member)) (Nat.lt_of_succ_lt few)
    have isKernel := kernel observation mem_concat_self
    have room : (agentAfter history).paired + 1 < 2 ^ 64 := by
      have most := length_synthesisedSpans_le history
      omega
    have taken := agree.take isKernel room alike.last
    rw [← taken_of_kernel _ isKernel] at taken
    have agent : agentAfter (history ++ [observation]) =
        (agentAfter history).updateProbeHealth (.pipeline observation) := run_snoc ..
    have host : hostAfter (history ++ [observation]) =
        (hostAfter history).step (.pipeline observation) := run_snoc ..
    have spans : synthesisedSpans (history ++ [observation]) = synthesisedSpans history ++
        (synthesised (hostAfter history) observation).toList := collect_snoc ..
    rw [agent, host, spans, length_append, ← same, AnalysisEngine.stages_step]
    exact ⟨taken.agree, taken.paired⟩

def scsiEvent (tsNs : U64) (phase : U8) : PipelineEvent :=
  ⟨tsNs, 2, phase, 7, 0, 0, 0, 0, 0, 10, 10, 1⟩

theorem probe_health_of_command :
    let observations := observationsOf 0 [scsiEvent 10 1, scsiEvent 20 2]
    (agentAfter observations).paired = (synthesisedSpans observations).length ∧
      (agentAfter observations).paired = 1 := by
  refine ⟨probe_health_counts_spans 0 [scsiEvent 10 1, scsiEvent 20 2] (by decide) ?_,
    by decide +kernel⟩
  refine StepsMeet.snoc (StepsMeet.snoc (stepsMeet_nil _) ?_) ?_
  · exact ⟨by decide +kernel, fun _ => rfl, fun ends => (nomatch ends)⟩
  · refine ⟨by decide +kernel, fun begins => (nomatch begins), fun _ => ⟨fun start found => ?_, ?_⟩⟩
    · have early : ((hostAfter (observationsOf 0 [scsiEvent 10 1])).stages.pendingPipeline.lookup
          (.scsi, opaqueKey 7 0, "SCSI command")).all (·.tsNs ≤ 20) = true := by decide +kernel
      rw [show AList.lookup _ _ = some start from found] at early
      exact of_decide_eq_true early
    · exact fun twice => absurd twice (by decide +kernel)

/-- An end before its begin is paired for the agent, while the host makes no span of it. -/
theorem reversed_stage_is_paired :
    let observations := observationsOf 0 [scsiEvent 20 1, scsiEvent 10 2]
    (agentAfter observations).paired = 1 ∧ (synthesisedSpans observations).length = 0 := by
  decide +kernel

end EbpfStudio
