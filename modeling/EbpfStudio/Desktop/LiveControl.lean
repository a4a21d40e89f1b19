/-
This file models how the desktop changes the configuration of a capture while it runs.

The desktop numbers its next configuration by the generation of the last answer that it has
ingested. The agent also moves its generation when its controller changes the mode, and tells this
only in its next answer. `Known` says what the desktop knows: the generation of the agent after an
answer, and a smaller one once the agent has moved by itself. So the next command is applied exactly
if the last move was an answer.
-/

import EbpfStudio.Agent.Control

namespace EbpfStudio

open Run List Option Agent AgentRecord

/-- What the user has set for a live capture. The slow threshold is in nanoseconds here. -/
structure LiveSettings where
  captureMode : CaptureMode
  totalLatencyNs : U64
  filterPid : U32
  filterOperation : Option IoOperation
  filterMinBytes : U32
  deriving DecidableEq

def LiveSettings.config (settings : LiveSettings) (generation : U64) : CaptureConfig where
  generation := generation
  mode := settings.captureMode
  filter :=
    { matchAll := settings.filterPid = 0 && settings.filterOperation.isNone &&
        settings.filterMinBytes = 0
      pids := if settings.filterPid = 0 then [] else [settings.filterPid]
      operations := settings.filterOperation.toList
      minBytes := if settings.filterMinBytes = 0 then none else some settings.filterMinBytes }
  detail := { totalLatencyNs := settings.totalLatencyNs }
  trigger := some
    { rule := "p99_total_latency"
      threshold := settings.totalLatencyNs
      consecutiveWindows := 3
      deepDurationNs := 10_000_000_000
      cooldownNs := 10_000_000_000
      armingTimeoutNs := 5_000_000_000 }

structure LiveControl where
  controlGeneration : U64 := 1
  deriving DecidableEq

namespace LiveControl

def ingestRecord (control : LiveControl) : AgentRecord → LiveControl
  | .control acknowledgement => { controlGeneration := acknowledgement.activeGeneration }
  | .aggregate _ => control
  | .trigger _ => control

def nextConfig (control : LiveControl) (settings : LiveSettings) : CaptureConfig :=
  settings.config (control.controlGeneration.saturatingAdd 1)

/-- The command that the desktop sends, unless it finds its own configuration invalid. -/
def applyCaptureControl (control : LiveControl) (settings : LiveSettings) :
    Option CaptureControlCommand :=
  match (control.nextConfig settings).validate maxFilterKeys with
  | .error _ => none
  | .ok _ => some (.applyConfig (control.nextConfig settings))

def caughtUp {cpus : Nat} (control : LiveControl) (agent : Agent cpus) : LiveControl :=
  agent.output.foldl ingestRecord control

end LiveControl

/-- What happens during a live capture. A command is sent when the desktop has caught up, and the
agent handles it before anything else happens. -/
inductive LiveStep (cpus : Nat) where
  | command (settings : LiveSettings) (fails : Nat → Bool)
  | probe (probe : BlockProbe cpus)
  | snapshot (readable : Bool) (fails : Nat → Bool)

namespace Agent

variable {cpus : Nat}

def liveStep (collectorPid : U32) (sessionId : String) (control : LiveControl)
    (agent : Agent cpus) (step : LiveStep cpus) : Agent cpus :=
  if agent.ended then agent
  else
    match step with
    | .command settings fails =>
      match (control.caughtUp agent).applyCaptureControl settings with
      | none => agent
      | some command => agent.handleCommand collectorPid command fails
    | .probe probe => { agent with kernel := agent.kernel.afterProbe probe }
    | .snapshot readable fails => agent.takeSnapshot collectorPid sessionId readable fails

inductive GenerationSource where
  | answer | automatic
  deriving DecidableEq

def generationSource (collectorPid : U32) (sessionId : String) (control : LiveControl)
    (agent : Agent cpus) (step : LiveStep cpus) : Option GenerationSource :=
  match step with
  | .command _ _ => some .answer
  | .probe _ => none
  | .snapshot _ _ =>
    if (agent.liveStep collectorPid sessionId control step).activeConfig.generation =
        agent.activeConfig.generation then none
    else some .automatic

end Agent

theorem LiveSettings.validate_config (settings : LiveSettings) {generation : U64}
    (nonzero : generation ≠ 0) : (settings.config generation).validate maxFilterKeys = .ok () := by
  have pids : (settings.config generation).filter.pids.length ≤ 1 ∧
      (settings.config generation).filter.pids.Nodup := by
    simp only [config]
    split <;> simp
  have operations : (settings.config generation).filter.operations.length ≤ 1 ∧
      (settings.config generation).filter.operations.Nodup := by
    simp only [config]
    cases settings.filterOperation <;> simp
  have few : ¬ maxFilterKeys < (settings.config generation).filter.keyCount := by
    have count : (settings.config generation).filter.keyCount =
        (settings.config generation).filter.pids.length + 0 + 0 + 0 + 0 +
          (settings.config generation).filter.operations.length := rfl
    rw [count, maxFilterKeys]
    omega
  have distinct : ¬ ¬ (settings.config generation).filter.distinctKeys :=
    not_not_intro ⟨pids.2, .nil, .nil, .nil, .nil, operations.2⟩
  have noMaximum : ¬ (settings.config generation).filter.minBytes.any (fun minimum =>
      (settings.config generation).filter.maxBytes.any fun maximum => maximum < minimum) =
        true := by
    simp [config]
  have trigger : (settings.config generation).trigger.map TriggerPolicy.check =
      some (.ok ()) := by
    have positive : (10_000_000_000 : U64) ≠ 0 ∧ (5_000_000_000 : U64) ≠ 0 := by decide
    simp only [config, map_some, TriggerPolicy.check]
    rw [if_neg (by decide), if_neg (by decide), if_neg (by simp [positive])]
  have rate : ¬ 10_000 < (settings.config generation).detail.sampleRatePermyriad := by
    show ¬ (10_000 : Word 16) < 100
    decide
  have numbered : (settings.config generation).generation ≠ 0 := nonzero
  simp only [CaptureConfig.validate]
  rw [if_neg numbered, if_neg few, if_neg distinct, if_neg noMaximum, if_neg rate, trigger]

namespace LiveControl

theorem controlGeneration_foldl (control : LiveControl) (output : List AgentRecord) :
    (output.foldl ingestRecord control).controlGeneration =
      ((output.filterMap acknowledgement?).getLast?).elim control.controlGeneration
        (·.activeGeneration) := by
  induction output using reverseRecOn with
  | nil => rfl
  | append_singleton records record hypothesis =>
    rw [foldl_append, filterMap_snoc]
    cases record with
    | control acknowledgement => simp [ingestRecord, acknowledgement?]
    | aggregate snapshot =>
      simpa [ingestRecord, acknowledgement?] using hypothesis
    | trigger trigger =>
      simpa [ingestRecord, acknowledgement?] using hypothesis

theorem controlGeneration_caughtUp {cpus : Nat} (control : LiveControl) (agent : Agent cpus) :
    (control.caughtUp agent).controlGeneration =
      agent.acknowledgements.getLast?.elim control.controlGeneration (·.activeGeneration) :=
  controlGeneration_foldl control agent.output

end LiveControl

section Runs

variable {cpus : Nat} {collectorPid : U32} {sessionId : String} {initial : Agent cpus}
  {initialFails : Nat → Bool} {control : LiveControl}

/-- What the desktop knows of the generation of the agent: no smaller one, unless the agent moved by
itself after its last answer, and then, if it started with that of the agent, a smaller one. -/
structure Known (control : LiveControl) (sources : List Agent.GenerationSource)
    (agent : Agent cpus) : Prop where
  most : sources.getLast? ≠ some .automatic →
    agent.activeConfig.generation ≤ (control.caughtUp agent).controlGeneration
  least : control.controlGeneration = 1 →
    (control.caughtUp agent).controlGeneration ≤ agent.activeConfig.generation
  behind : control.controlGeneration = 1 → sources.getLast? = some .automatic →
    (control.caughtUp agent).controlGeneration < agent.activeConfig.generation

theorem known_start (started : start collectorPid initialFails = .ok initial)
    (positive : 0 < control.controlGeneration) : Known control [] initial := by
  obtain ⟨-, config, -, output⟩ := of_start started
  have first : initial.activeConfig.generation = 1 := by
    rw [config]
    rfl
  have nothing : (control.caughtUp initial).controlGeneration = control.controlGeneration := by
    rw [LiveControl.caughtUp, output]
    rfl
  refine ⟨fun _ => ?_, fun one => ?_, fun _ => nofun⟩
  · rw [first, nothing]
    exact Fin.le_def.mpr (Fin.lt_def.mp positive)
  · rw [first, nothing, one]

theorem LiveControl.applyCaptureControl_eq (control : LiveControl) (settings : LiveSettings) :
    control.applyCaptureControl settings = some (.applyConfig (control.nextConfig settings)) := by
  have nonzero : control.controlGeneration.saturatingAdd 1 ≠ 0 := by
    rw [Ne, Fin.ext_iff, Word.saturatingAdd_val]
    show ¬ min (control.controlGeneration.val + 1) (2 ^ 64 - 1) = 0
    omega
  rw [applyCaptureControl, nextConfig, settings.validate_config nonzero]

variable {agent : Agent cpus} {fails : Nat → Bool}

theorem Agent.liveStep_command (running : agent.ended = false) {settings : LiveSettings} :
    agent.liveStep collectorPid sessionId control (.command settings fails) =
      agent.handleCommand collectorPid
        (.applyConfig ((control.caughtUp agent).nextConfig settings)) fails := by
  simp only [liveStep, running, LiveControl.applyCaptureControl_eq]
  rfl

theorem known_command (settings : LiveSettings) (fails : Nat → Bool)
    (sources : List GenerationSource) :
    Known control (sources ++ [.answer]) (agent.handleCommand collectorPid
      (.applyConfig ((control.caughtUp agent).nextConfig settings)) fails) := by
  have answers : (sources ++ [GenerationSource.answer]).getLast? ≠ some .automatic := by simp
  obtain ⟨acknowledgement, answered, generation, -⟩ :=
    (handled_handleCommand collectorPid agent
      (.applyConfig ((control.caughtUp agent).nextConfig settings)) fails).answered
  have same : (control.caughtUp (agent.handleCommand collectorPid
      (.applyConfig ((control.caughtUp agent).nextConfig settings)) fails)).controlGeneration =
        (agent.handleCommand collectorPid (.applyConfig ((control.caughtUp agent).nextConfig
          settings)) fails).activeConfig.generation := by
    rw [LiveControl.controlGeneration_caughtUp, answered, getLast?_append,
      getLast?_singleton, some_or, elim_some, generation]
  exact ⟨fun _ => same.ge, fun _ => same.le, fun _ moved => absurd moved answers⟩

/-- A snapshot leaves the generation, or moves it up. -/
theorem generation_takeSnapshot (collectorPid : U32) (sessionId : String) (agent : Agent cpus)
    (readable : Bool) (fails : Nat → Bool) :
    agent.activeConfig.generation ≤
      (agent.takeSnapshot collectorPid sessionId readable fails).activeConfig.generation := by
  cases followed_takeSnapshot collectorPid fails sessionId agent readable with
  | stayed config => rw [config]
  | stopped _ _ config => rw [config]
  | switched next _ config =>
    rw [config, next, Fin.le_def, Word.saturatingAdd_val]
    have small := agent.activeConfig.generation.isLt
    omega

theorem Known.congr {sources : List GenerationSource} {after : Agent cpus}
    (known : Known control sources agent)
    (still : after.activeConfig.generation = agent.activeConfig.generation)
    (same : (control.caughtUp after).controlGeneration =
      (control.caughtUp agent).controlGeneration) : Known control sources after := by
  obtain ⟨most, least, behind⟩ := known
  constructor <;> rwa [still, same]

theorem Known.of_snapshot {sources : List GenerationSource} {readable : Bool}
    (known : Known control sources agent) (running : agent.ended = false) :
    Known control
      (sources ++ (agent.generationSource collectorPid sessionId control
        (.snapshot readable fails)).toList)
      (agent.liveStep collectorPid sessionId control (.snapshot readable fails)) := by
  have snapped : agent.liveStep collectorPid sessionId control (.snapshot readable fails) =
      agent.takeSnapshot collectorPid sessionId readable fails := by
    simp only [liveStep, running]
    rfl
  have up := generation_takeSnapshot collectorPid sessionId agent readable fails
  have same : (control.caughtUp
      (agent.takeSnapshot collectorPid sessionId readable fails)).controlGeneration =
        (control.caughtUp agent).controlGeneration := by
    rw [LiveControl.controlGeneration_caughtUp, acknowledgements_takeSnapshot,
      ← LiveControl.controlGeneration_caughtUp]
  simp only [generationSource]
  rw [snapped]
  split
  · -- The generation has not moved, and nothing was answered.
    rename_i still
    rw [toList_none, append_nil]
    exact known.congr still same
  · rename_i moved
    have further := lt_of_le_of_ne up (Ne.symm moved)
    refine ⟨fun quiet => absurd (by simp) quiet, fun one => ?_, fun one _ => ?_⟩
    all_goals rw [same]
    · exact (known.least one).trans up
    · exact (known.least one).trans_lt further

theorem known_run (started : start collectorPid initialFails = .ok initial)
    (positive : 0 < control.controlGeneration) (steps : List (LiveStep cpus)) :
    (run (liveStep collectorPid sessionId control) initial steps).ended = false →
    Known control
      (collect (liveStep collectorPid sessionId control)
        (generationSource collectorPid sessionId control) initial steps)
      (run (liveStep collectorPid sessionId control) initial steps) := by
  refine run_induction (fun history (agent : Agent cpus) => agent.ended = false → Known control
    (collect (liveStep collectorPid sessionId control)
      (generationSource collectorPid sessionId control) initial history) agent)
    (fun _ => known_start started positive) (fun history input known => ?_) steps
  rw [collect_snoc]
  generalize run (liveStep collectorPid sessionId control) initial history = agent at known ⊢
  generalize collect (liveStep collectorPid sessionId control)
    (generationSource collectorPid sessionId control) initial history = sources at known ⊢
  cases state : agent.ended with
  | true =>
    have nothing : agent.liveStep collectorPid sessionId control input = agent := if_pos state
    rw [nothing]
    exact fun running => nomatch state.symm.trans running
  | false =>
    intro _
    cases input with
    | command settings fails =>
      rw [liveStep_command state]
      exact known_command settings fails _
    | probe probe =>
      have same : (agent.liveStep collectorPid sessionId control (.probe probe)).activeConfig =
          agent.activeConfig ∧
        (agent.liveStep collectorPid sessionId control (.probe probe)).output = agent.output := by
        simp [liveStep, state]
      have caughtUp : control.caughtUp
          (agent.liveStep collectorPid sessionId control (.probe probe)) =
            control.caughtUp agent := by
        rw [LiveControl.caughtUp, same.2]
        rfl
      rw [show (agent.generationSource collectorPid sessionId control (.probe probe)).toList = []
        from rfl, append_nil]
      exact (known state).congr (by rw [same.1]) (by rw [caughtUp])
    | snapshot readable fails => exact (known state).of_snapshot state

end Runs

/-- A command that the desktop sends once it has processed everything the agent wrote is applied,
if the agent has not moved its generation by itself since its last answer. For a desktop that starts
with the generation of the agent it is applied only then. -/
theorem live_command_is_applied {cpus : Nat} (collectorPid : U32) (sessionId : String)
    (control : LiveControl) (positive : 0 < control.controlGeneration) {initial : Agent cpus}
    {initialFails : Nat → Bool} (started : Agent.start collectorPid initialFails = .ok initial)
    (history : List (LiveStep cpus)) (settings : LiveSettings) (fails : Nat → Bool) :
    let agent := run (Agent.liveStep collectorPid sessionId control) initial history
    let config := (control.caughtUp agent).nextConfig settings
    let announced := (collect (Agent.liveStep collectorPid sessionId control)
      (Agent.generationSource collectorPid sessionId control) initial history).getLast? ≠
        some .automatic
    let applied := ∃ acknowledgement,
      (agent.liveStep collectorPid sessionId control (.command settings fails)).acknowledgements =
        agent.acknowledgements ++ [acknowledgement] ∧ acknowledgement.outcome = .applied
    agent.ended = false → (agent.kernel.maps.apply collectorPid fails config).2 = .ok () →
    (control.caughtUp agent).controlGeneration.val < 2 ^ 64 - 1 →
    (announced → applied) ∧ (control.controlGeneration = 1 → applied → announced) := by
  intro agent config announced applied running accepts room
  have known := known_run started positive history running
  have number : config.generation.val = (control.caughtUp agent).controlGeneration.val + 1 :=
    Word.saturatingAdd_of_lt _ _ (by omega)
  obtain ⟨acknowledgement, answered, -, outcome⟩ :=
    (handled_handleCommand collectorPid agent (.applyConfig config) fails).answered
  refine ⟨fun quiet => ⟨acknowledgement, ?_, outcome.mpr ⟨?_, accepts⟩⟩,
    fun one ⟨other, appended, isApplied⟩ moved => ?_⟩
  · rw [liveStep_command running]
    exact answered
  · have newer : agent.activeConfig.generation < config.generation := by
      rw [Fin.lt_def, number]
      exact Nat.lt_succ_of_le (known.most quiet)
    have valid : config.validate maxFilterKeys = .ok () := by
      refine settings.validate_config fun zero => ?_
      have value : config.generation.val = 0 := congrArg Fin.val zero
      omega
    show rejectedReason agent.activeConfig config = none
    rw [rejectedReason, if_neg (not_le.mpr newer), valid]
  · rw [liveStep_command running, answered] at appended
    obtain rfl : acknowledgement = other := by simpa using appended
    have newer : agent.activeConfig.generation < config.generation :=
      (rejectedReason_eq_none (outcome.mp isApplied).1).1
    have behind : (control.caughtUp agent).controlGeneration < agent.activeConfig.generation :=
      known.behind one moved
    rw [Fin.lt_def, number] at newer
    exact absurd (Fin.lt_def.mp behind) (Nat.not_lt_of_le (Nat.le_of_lt_succ newer))

def plainSettings : LiveSettings := ⟨.deep, 5_000_000, 0, none, 0⟩

/-- A slow request makes the agent go into detail, and a later one makes it cool down. -/
def cooledDown : List (LiveStep 1) :=
  [.probe (probeBy .issue 10 100), .probe (probeBy .complete 0 20_000_100),
    .snapshot true fun _ => false, .snapshot true fun _ => false,
    .snapshot true fun _ => false, .probe (probeBy .issue 10 15_000_000_000),
    .probe (probeBy .complete 0 15_020_000_000), .snapshot true fun _ => false]

/-- The agent has moved its generation by itself, and rejects a command. The answer tells the
desktop, and the next command is applied. -/
theorem live_command_is_applied_answered :
    ∃ initial : Agent 1, Agent.start 7 (fun _ => false) = .ok initial ∧
      let agent := run (Agent.liveStep 7 "s" {}) initial
        (cooledDown ++ [.command plainSettings fun _ => false])
      agent.acknowledgements.map (·.outcome) = [.rejected] ∧
      ∃ acknowledgement,
        (agent.liveStep 7 "s" {} (.command plainSettings fun _ => false)).acknowledgements =
          agent.acknowledgements ++ [acknowledgement] ∧ acknowledgement.outcome = .applied := by
  refine ⟨_, rfl, by decide +kernel, ?_⟩
  have started : start 7 (fun _ => false) = .ok (_ : Agent 1) := rfl
  have both := live_command_is_applied 7 "s" {} (by decide) started
    (cooledDown ++ [.command plainSettings fun _ => false]) plainSettings fun _ => false
  exact (both (by decide +kernel) (by decide +kernel) (by decide +kernel)).1 (by decide +kernel)

/-- A slow request makes the agent go into detail, and the next one comes so much later that it
cools down. This moves the generation, and the next command of the desktop is rejected. -/
theorem live_command_after_cooldown_is_rejected :
    ∃ initial : Agent 1, Agent.start 7 (fun _ => false) = .ok initial ∧
      let agent := run (Agent.liveStep 7 "s" {}) initial cooledDown
      let config := (({} : LiveControl).caughtUp agent).nextConfig plainSettings
      agent.ended = false ∧ (agent.kernel.maps.apply 7 (fun _ => false) config).2 = .ok () ∧
        (agent.liveStep 7 "s" {} (.command plainSettings fun _ => false)).acknowledgements =
          [⟨2, 2, .rejected, some "generation must increase"⟩] := by
  refine ⟨_, rfl, ?_⟩
  decide +kernel

end EbpfStudio
