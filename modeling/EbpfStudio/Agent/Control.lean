/-
This file models the agent: how it answers control commands, and how it changes the mode of a
capture by itself.

A step is a command, a probe or a snapshot. `Handled` says what a command can do to the agent and
`Followed` what the controller can do after a snapshot. So every change of the configuration in a
run is to a later generation, except where the controller changes the mode under the last one.
-/

import EbpfStudio.Kernel.Aggregates
import EbpfStudio.Protocol.Adaptive
import EbpfStudio.Protocol.Histogram

namespace EbpfStudio

open Run List

/-! ### Commands -/

/-- A command of the desktop. -/
inductive CaptureControlCommand where
  | applyConfig (config : CaptureConfig)
  | setMode (generation : U64) (mode : CaptureMode) (reason : String)
  deriving DecidableEq

inductive ControlOutcome where
  | applied | rejected
  deriving DecidableEq

/-- The answer to a command. -/
structure CaptureControlAck where
  requestedGeneration : U64
  activeGeneration : U64
  outcome : ControlOutcome
  reason : Option String
  deriving DecidableEq

/-- The command in a line of the standard input. A line that is too long or that does not decode
is dropped. -/
def readControlCommand (decode : String → Option CaptureControlCommand) (line : String) :
    Option CaptureControlCommand :=
  if line.utf8ByteSize ≤ 64 * 1024 then decode line else none

def CaptureControlCommand.requested (active : CaptureConfig) :
    CaptureControlCommand → CaptureConfig
  | applyConfig config => config
  | setMode generation mode _ => { active with generation := generation, mode := mode }

def rejectedReason (active requested : CaptureConfig) : Option String :=
  if requested.generation ≤ active.generation then some "generation must increase"
  else
    match requested.validate maxFilterKeys with
    | .error error => some error.message
    | .ok _ => none

/-- The configuration after a command, as far as the agent itself can tell, and the answer. -/
def applyControlCommand (active : CaptureConfig) (command : CaptureControlCommand) :
    CaptureConfig × CaptureControlAck :=
  let requested := command.requested active
  match rejectedReason active requested with
  | some reason =>
    (active,
      { requestedGeneration := requested.generation
        activeGeneration := active.generation
        outcome := .rejected
        reason := some reason })
  | none =>
    (requested,
      { requestedGeneration := requested.generation
        activeGeneration := requested.generation
        outcome := .applied
        reason := none })

/-! ### The agent -/

/-- What the agent writes. -/
inductive AgentRecord where
  | control (acknowledgement : CaptureControlAck)
  | aggregate (snapshot : AggregateSnapshot)
  | trigger (trigger : TriggerRecord)

def AgentRecord.acknowledgement? : AgentRecord → Option CaptureControlAck
  | control acknowledgement => some acknowledgement
  | _ => none

/-- The loop of the agent, with the kernel that it runs on and everything it has written. It ends
when an error is not answered. -/
structure Agent (cpus : Nat) where
  activeConfig : CaptureConfig
  requestedMode : CaptureMode
  adaptiveController : Option AdaptiveController
  kernel : BlockKernel cpus
  aggregateEpoch : U64 := 0
  output : List AgentRecord := []
  ended : Bool := false

def defaultCaptureConfig : CaptureConfig where
  generation := 1
  mode := .deep
  filter := { matchAll := true }
  detail := {}
  trigger := some
    { rule := "p99_total_latency"
      threshold := 5_000_000
      consecutiveWindows := 3
      deepDurationNs := 10_000_000_000
      cooldownNs := 10_000_000_000
      armingTimeoutNs := 5_000_000_000 }

def CaptureConfig.controller (config : CaptureConfig) :
    Except TriggerPolicyError (Option AdaptiveController) :=
  match config.trigger with
  | none => .ok none
  | some policy => (AdaptiveController.new policy).map some

/-- The upper bound of the bucket that holds a percentile, or the lower one if it has none. -/
def aggregatePercentileUpper (snapshot : AggregateSnapshot) (metric : HistogramMetric)
    (percentile : U8) : Option U64 :=
  ((snapshot.histograms.lookup metric).bind (·.percentileRange percentile)).map fun range =>
    range.2.getD range.1

def targetMode (requestedMode : CaptureMode) : CaptureState → Option CaptureMode
  | .deep => some .deep
  | .cooldown => some .balanced
  | .basic => some requestedMode
  | .armed => none

namespace Agent

variable {cpus : Nat}

inductive StartError where
  | trigger (error : TriggerPolicyError)
  | filter (error : ApplyError)
  deriving DecidableEq

def StartError.message : StartError → String
  | trigger error => error.message
  | filter _ => "cannot apply initial capture filter"

/-- Start an agent with the default configuration. -/
def start (collectorPid : U32) (fails : Nat → Bool) : Except StartError (Agent cpus) :=
  match defaultCaptureConfig.controller with
  | .error error => .error (.trigger error)
  | .ok controller =>
    let applied := ({} : FilterMaps).apply collectorPid fails defaultCaptureConfig
    match applied.2 with
    | .error error => .error (.filter error)
    | .ok _ =>
      .ok
        { activeConfig := defaultCaptureConfig
          requestedMode := defaultCaptureConfig.mode
          adaptiveController := controller
          kernel := { maps := applied.1 } }

def write (agent : Agent cpus) (record : AgentRecord) : Agent cpus :=
  { agent with output := agent.output ++ [record] }

def withMaps (agent : Agent cpus) (maps : FilterMaps) : Agent cpus :=
  { agent with kernel := { agent.kernel with maps := maps } }

/-- Answer a command. -/
def handleCommand (collectorPid : U32) (agent : Agent cpus) (command : CaptureControlCommand)
    (fails : Nat → Bool) : Agent cpus :=
  let answer := applyControlCommand agent.activeConfig command
  if answer.2.outcome = .rejected then agent.write (.control answer.2)
  else
    let applied := agent.kernel.maps.apply collectorPid fails answer.1
    let agent := agent.withMaps applied.1
    match applied.2 with
    | .error error =>
      agent.write (.control { answer.2 with
        activeGeneration := agent.activeConfig.generation
        outcome := .rejected
        reason := some error.message })
    | .ok _ =>
      let agent := { agent with activeConfig := answer.1, requestedMode := answer.1.mode }
      match answer.1.controller with
      | .error _ => { agent with ended := true }
      | .ok controller => { agent with adaptiveController := controller }.write (.control answer.2)

/-- Change the mode as the controller says. -/
def followTrigger (collectorPid : U32) (agent : Agent cpus) (trigger : TriggerRecord)
    (fails : Nat → Bool) : Agent cpus :=
  match (targetMode agent.requestedMode trigger.toState).filter (agent.activeConfig.mode ≠ ·) with
  | none => agent.write (.trigger trigger)
  | some mode =>
    let automatic := { agent.activeConfig with
      generation := agent.activeConfig.generation.saturatingAdd 1, mode := mode }
    let applied := agent.kernel.maps.apply collectorPid fails automatic
    let agent := agent.withMaps applied.1
    match applied.2 with
    | .error _ => { agent with ended := true }
    | .ok _ =>
      { agent with activeConfig := automatic }.write
        (.trigger { trigger with configGeneration := automatic.generation })

def nextSnapshot (sessionId : String) (agent : Agent cpus) : AggregateSnapshot :=
  readAggregateSnapshot sessionId (agent.aggregateEpoch.saturatingAdd 1)
    agent.activeConfig.generation (List.ofFn agent.kernel.aggregates)

def observeSnapshot (collectorPid : U32) (agent : Agent cpus) (snapshot : AggregateSnapshot)
    (fails : Nat → Bool) : Agent cpus :=
  match agent.adaptiveController, aggregatePercentileUpper snapshot .totalLatency 99 with
  | some controller, some observed =>
    let moved := controller.observe snapshot.endTsNs observed agent.activeConfig.generation
    let agent := { agent with adaptiveController := some moved.1 }
    match moved.2 with
    | none => agent
    | some trigger => agent.followTrigger collectorPid trigger fails
  | _, _ => agent

/-- The aggregates may not be readable; then only the number of the snapshot is used up. -/
def takeSnapshot (collectorPid : U32) (sessionId : String) (agent : Agent cpus) (readable : Bool)
    (fails : Nat → Bool) : Agent cpus :=
  let snapshot := agent.nextSnapshot sessionId
  let agent := { agent with aggregateEpoch := snapshot.epoch }
  if readable then
    (agent.write (.aggregate snapshot)).observeSnapshot collectorPid snapshot fails
  else agent

end Agent

/-- What happens to an agent. Which insertions into the maps fail is part of a step. -/
inductive AgentStep (cpus : Nat) where
  | control (line : String) (fails : Nat → Bool)
  | probe (probe : BlockProbe cpus)
  | snapshot (readable : Bool) (fails : Nat → Bool)

namespace Agent

variable {cpus : Nat}

def step (decode : String → Option CaptureControlCommand) (collectorPid : U32)
    (sessionId : String) (agent : Agent cpus) (step : AgentStep cpus) : Agent cpus :=
  if agent.ended then agent
  else
    match step with
    | .control line fails =>
      match readControlCommand decode line with
      | none => agent
      | some command => agent.handleCommand collectorPid command fails
    | .probe probe => { agent with kernel := agent.kernel.afterProbe probe }
    | .snapshot readable fails => agent.takeSnapshot collectorPid sessionId readable fails

/-! ### What a command does -/

theorem rejectedReason_eq_none {active requested : CaptureConfig}
    (accepted : rejectedReason active requested = none) :
    active.generation < requested.generation ∧ requested.validate maxFilterKeys = .ok () := by
  unfold rejectedReason at accepted
  split at accepted
  · cases accepted
  · rename_i newer
    refine ⟨not_le.mp newer, ?_⟩
    cases checked : requested.validate maxFilterKeys with
    | error error =>
      rw [checked] at accepted
      cases accepted
    | ok => rfl

end Agent

theorem CaptureConfig.controller_of_validate {config : CaptureConfig} {maxKeys : Nat}
    (valid : config.validate maxKeys = .ok ()) :
    ∃ controller, config.controller = .ok controller := by
  unfold CaptureConfig.controller
  cases trigger : config.trigger with
  | none => exact ⟨none, rfl⟩
  | some policy =>
    have checked : policy.check = .ok () := by
      cases check : policy.check with
      | ok => rfl
      | error error =>
        unfold validate at valid
        rw [trigger, Option.map_some, check] at valid
        dsimp only at valid
        split_ifs at valid
    dsimp only
    rw [AdaptiveController.new, checked]
    exact ⟨_, rfl⟩

namespace Agent

variable {cpus : Nat}

/-- What a command does to an agent: it is refused, it cannot be staged, or it takes effect. It is
answered in each case. -/
inductive Handled (collectorPid : U32) (fails : Nat → Bool) (agent : Agent cpus) :
    CaptureConfig → Agent cpus → Prop
  | refused {requested : CaptureConfig} {acknowledgement : CaptureControlAck}
      (generation : acknowledgement.activeGeneration = agent.activeConfig.generation)
      (rejected : acknowledgement.outcome = .rejected)
      (reason : (rejectedReason agent.activeConfig requested).isSome = true) :
      Handled collectorPid fails agent requested (agent.write (.control acknowledgement))
  | unstaged {requested : CaptureConfig} {acknowledgement : CaptureControlAck} {error : ApplyError}
      (accepted : rejectedReason agent.activeConfig requested = none)
      (failed : (agent.kernel.maps.apply collectorPid fails requested).2 = .error error)
      (generation : acknowledgement.activeGeneration = agent.activeConfig.generation)
      (rejected : acknowledgement.outcome = .rejected) :
      Handled collectorPid fails agent requested
        ((agent.withMaps (agent.kernel.maps.apply collectorPid fails requested).1).write
          (.control acknowledgement))
  | applied {requested : CaptureConfig} {acknowledgement : CaptureControlAck}
      {controller : Option AdaptiveController}
      (accepted : rejectedReason agent.activeConfig requested = none)
      (succeeded : (agent.kernel.maps.apply collectorPid fails requested).2 = .ok ())
      (generation : acknowledgement.activeGeneration = requested.generation)
      (outcome : acknowledgement.outcome = .applied) :
      Handled collectorPid fails agent requested
        ({ agent.withMaps (agent.kernel.maps.apply collectorPid fails requested).1 with
          activeConfig := requested
          requestedMode := requested.mode
          adaptiveController := controller }.write (.control acknowledgement))

variable (collectorPid : U32) (agent : Agent cpus)

theorem handled_handleCommand (command : CaptureControlCommand) (fails : Nat → Bool) :
    Handled collectorPid fails agent (command.requested agent.activeConfig)
      (agent.handleCommand collectorPid command fails) := by
  unfold handleCommand
  dsimp only
  cases reason : rejectedReason agent.activeConfig (command.requested agent.activeConfig) with
  | some text =>
    simp only [applyControlCommand, reason, if_true]
    exact .refused rfl rfl (by rw [reason]; rfl)
  | none =>
    obtain ⟨controller, made⟩ :=
      CaptureConfig.controller_of_validate (rejectedReason_eq_none reason).2
    have accepted : ControlOutcome.applied ≠ .rejected := by decide
    simp only [applyControlCommand, reason, accepted, if_false]
    split
    · rename_i error failed
      exact .unstaged reason failed rfl rfl
    · rename_i succeeded
      rw [made]
      exact .applied reason succeeded rfl rfl

/-! ### What a snapshot does -/

/-- A snapshot leaves the configuration alone, or it tries to put one of the next generation into
effect. The agent ends if this fails. -/
inductive Followed (collectorPid : U32) (fails : Nat → Bool) (agent : Agent cpus) :
    Agent cpus → Prop
  | stayed {after : Agent cpus} (config : after.activeConfig = agent.activeConfig)
      (kernel : after.kernel = agent.kernel) (goesOn : after.ended = agent.ended) :
      Followed collectorPid fails agent after
  | stopped {after : Agent cpus} {automatic : CaptureConfig} {error : ApplyError}
      (next : automatic.generation = agent.activeConfig.generation.saturatingAdd 1)
      (failed : (agent.kernel.maps.apply collectorPid fails automatic).2 = .error error)
      (config : after.activeConfig = agent.activeConfig)
      (kernel : after.kernel = { agent.kernel with
        maps := (agent.kernel.maps.apply collectorPid fails automatic).1 })
      (ends : after.ended = true) : Followed collectorPid fails agent after
  | switched {after : Agent cpus} {automatic : CaptureConfig}
      (next : automatic.generation = agent.activeConfig.generation.saturatingAdd 1)
      (succeeded : (agent.kernel.maps.apply collectorPid fails automatic).2 = .ok ())
      (config : after.activeConfig = automatic)
      (kernel : after.kernel = { agent.kernel with
        maps := (agent.kernel.maps.apply collectorPid fails automatic).1 })
      (goesOn : after.ended = agent.ended) : Followed collectorPid fails agent after

section Followed

variable (collectorPid : U32) (fails : Nat → Bool)

theorem followed_followTrigger (agent : Agent cpus) (trigger : TriggerRecord) :
    Followed collectorPid fails agent (agent.followTrigger collectorPid trigger fails) := by
  unfold followTrigger
  split
  · exact .stayed rfl rfl rfl
  · dsimp only
    split
    · rename_i failed
      exact .stopped rfl failed rfl rfl rfl
    · rename_i succeeded
      exact .switched rfl succeeded rfl rfl rfl

theorem followed_observeSnapshot (agent : Agent cpus) (snapshot : AggregateSnapshot) :
    Followed collectorPid fails agent (agent.observeSnapshot collectorPid snapshot fails) := by
  unfold observeSnapshot
  split
  · rename_i controller observed _ _
    dsimp only
    split
    · exact .stayed rfl rfl rfl
    · -- The controller that has moved is not read any more.
      rename_i trigger _
      cases followed_followTrigger collectorPid fails
        { agent with adaptiveController := some (controller.observe snapshot.endTsNs observed
          agent.activeConfig.generation).1 } trigger with
      | stayed config kernel goesOn => exact .stayed config kernel goesOn
      | stopped next failed config kernel ends => exact .stopped next failed config kernel ends
      | switched next succeeded config kernel goesOn =>
        exact .switched next succeeded config kernel goesOn
  · exact .stayed rfl rfl rfl

theorem followed_takeSnapshot (sessionId : String) (agent : Agent cpus) (readable : Bool) :
    Followed collectorPid fails agent
      (agent.takeSnapshot collectorPid sessionId readable fails) := by
  unfold takeSnapshot
  split
  · cases followed_observeSnapshot collectorPid fails
      ({ agent with aggregateEpoch := (agent.nextSnapshot sessionId).epoch }.write
        (.aggregate (agent.nextSnapshot sessionId))) (agent.nextSnapshot sessionId) with
    | stayed config kernel goesOn => exact .stayed config kernel goesOn
    | stopped next failed config kernel ends => exact .stopped next failed config kernel ends
    | switched next succeeded config kernel goesOn =>
      exact .switched next succeeded config kernel goesOn
  · exact .stayed rfl rfl rfl

end Followed

/-! ### What a step does -/

def acknowledgements (agent : Agent cpus) : List CaptureControlAck :=
  agent.output.filterMap AgentRecord.acknowledgement?

theorem acknowledgements_write (record : AgentRecord) :
    (agent.write record).acknowledgements =
      agent.acknowledgements ++ record.acknowledgement?.toList :=
  filterMap_snoc _ agent.output record

theorem acknowledgements_followTrigger (trigger : TriggerRecord) (fails : Nat → Bool) :
    (agent.followTrigger collectorPid trigger fails).acknowledgements =
      agent.acknowledgements := by
  unfold followTrigger
  split
  · exact (acknowledgements_write ..).trans (append_nil _)
  · dsimp only
    split
    · rfl
    · exact (acknowledgements_write ..).trans (append_nil _)

theorem acknowledgements_observeSnapshot (snapshot : AggregateSnapshot) (fails : Nat → Bool) :
    (agent.observeSnapshot collectorPid snapshot fails).acknowledgements =
      agent.acknowledgements := by
  unfold observeSnapshot
  split
  · dsimp only
    split
    · rfl
    · exact acknowledgements_followTrigger ..
  · rfl

theorem acknowledgements_takeSnapshot (sessionId : String) (agent : Agent cpus) (readable : Bool)
    (fails : Nat → Bool) :
    (agent.takeSnapshot collectorPid sessionId readable fails).acknowledgements =
      agent.acknowledgements := by
  unfold takeSnapshot
  split
  · rw [acknowledgements_observeSnapshot, acknowledgements_write]
    exact append_nil _
  · rfl

inductive Stepped (collectorPid : U32) (agent : Agent cpus) : AgentStep cpus → Agent cpus → Prop
  | ended {input : AgentStep cpus} (ended : agent.ended = true) :
      Stepped collectorPid agent input agent
  | dropped {line : String} {fails : Nat → Bool} :
      Stepped collectorPid agent (.control line fails) agent
  | handled {line : String} {fails : Nat → Bool} {requested : CaptureConfig} {after : Agent cpus}
      (handled : Handled collectorPid fails agent requested after) :
      Stepped collectorPid agent (.control line fails) after
  | probed {probe : BlockProbe cpus} (running : agent.ended = false) :
      Stepped collectorPid agent (.probe probe)
        { agent with kernel := agent.kernel.afterProbe probe }
  | snapped {readable : Bool} {fails : Nat → Bool} {after : Agent cpus}
      (followed : Followed collectorPid fails agent after)
      (silent : after.acknowledgements = agent.acknowledgements) :
      Stepped collectorPid agent (.snapshot readable fails) after

theorem stepped_step (decode : String → Option CaptureControlCommand) (collectorPid : U32)
    (sessionId : String) (agent : Agent cpus) (input : AgentStep cpus) :
    Stepped collectorPid agent input (agent.step decode collectorPid sessionId input) := by
  unfold step
  split
  · rename_i ended
    exact .ended ended
  · rename_i running
    cases input with
    | control line fails =>
      dsimp only
      split
      · exact .dropped
      · exact .handled (handled_handleCommand collectorPid agent _ fails)
    | probe probe => exact .probed (Bool.eq_false_iff.mpr running)
    | snapshot readable fails =>
      exact .snapped (followed_takeSnapshot collectorPid fails sessionId agent readable)
        (acknowledgements_takeSnapshot ..)

/-! ### The agent and the kernel -/

def capture (agent : Agent cpus) : Capture cpus :=
  { kernel := agent.kernel, generation := agent.activeConfig.generation }

variable {collectorPid : U32} {fails : Nat → Bool} {agent after : Agent cpus}

theorem capture_of_apply {config : CaptureConfig} {outcome : Except ApplyError Unit}
    (applied : (agent.kernel.maps.apply collectorPid fails config).2 = outcome)
    (active : after.activeConfig = match outcome with
      | .ok () => config
      | .error _ => agent.activeConfig)
    (kernel : after.kernel = { agent.kernel with
      maps := (agent.kernel.maps.apply collectorPid fails config).1 }) :
    after.capture = agent.capture.apply collectorPid config fails := by
  unfold capture Capture.apply
  dsimp only
  rw [applied, kernel, active]
  cases outcome <;> rfl

theorem Handled.capture {requested : CaptureConfig}
    (handled : Handled collectorPid fails agent requested after) :
    after.capture = agent.capture ∨
      agent.activeConfig.generation < requested.generation ∧
        after.capture = agent.capture.apply collectorPid requested fails := by
  cases handled with
  | refused => exact .inl rfl
  | unstaged accepted failed =>
    exact .inr ⟨(rejectedReason_eq_none accepted).1, capture_of_apply failed rfl rfl⟩
  | applied accepted succeeded =>
    exact .inr ⟨(rejectedReason_eq_none accepted).1, capture_of_apply succeeded rfl rfl⟩

theorem Followed.capture (followed : Followed collectorPid fails agent after) :
    after.capture = agent.capture ∨
      ∃ automatic, automatic.generation = agent.activeConfig.generation.saturatingAdd 1 ∧
        after.capture = agent.capture.apply collectorPid automatic fails := by
  cases followed with
  | stayed config kernel =>
    refine .inl ?_
    unfold Agent.capture
    rw [config, kernel]
  | stopped next failed config kernel =>
    exact .inr ⟨_, next, capture_of_apply failed config kernel⟩
  | switched next succeeded config kernel =>
    exact .inr ⟨_, next, capture_of_apply succeeded config kernel⟩

section Runs

variable {decode : String → Option CaptureControlCommand} {collectorPid : U32}
  {sessionId : String} {initial : Agent cpus} {initialFails : Nat → Bool}

section

variable (started : start collectorPid initialFails = .ok initial)

include started

theorem of_start :
    (({} : FilterMaps).apply collectorPid initialFails defaultCaptureConfig).2 = .ok () ∧
      initial.activeConfig = defaultCaptureConfig ∧
      initial.kernel =
        { maps := (({} : FilterMaps).apply collectorPid initialFails defaultCaptureConfig).1 } ∧
      initial.output = [] := by
  unfold start at started
  split at started
  · cases started
  · dsimp only at started
    split at started
    · cases started
    · rename_i succeeded
      cases started
      exact ⟨succeeded, rfl, rfl, rfl⟩

theorem capture_start :
    initial.capture =
      ({} : Capture cpus).apply collectorPid defaultCaptureConfig initialFails := by
  obtain ⟨succeeded, config, kernel, -⟩ := of_start started
  unfold capture Capture.apply
  dsimp only
  rw [succeeded, config, kernel]

theorem agrees_start : initial.capture.Agrees := by
  have empty : ({} : Capture cpus).Agrees :=
    ⟨fun _ _ found => (by cases found), rfl, fun nonzero => absurd rfl nonzero⟩
  rw [capture_start started]
  exact (empty.apply collectorPid defaultCaptureConfig initialFails).1

theorem agrees_run (steps : List (AgentStep cpus)) :
    (run (step decode collectorPid sessionId) initial steps).capture.Agrees := by
  refine run_induction (fun _ (agent : Agent cpus) => agent.capture.Agrees)
    (agrees_start started) (fun history input agrees => ?_) steps
  generalize run (step decode collectorPid sessionId) initial history = agent at agrees ⊢
  have stepped := stepped_step decode collectorPid sessionId agent input
  generalize agent.step decode collectorPid sessionId input = after at stepped ⊢
  cases stepped with
  | ended => exact agrees
  | dropped => exact agrees
  | handled handled =>
    rcases handled.capture with same | ⟨-, applied⟩
    · rw [same]
      exact agrees
    · rw [applied]
      exact (agrees.apply collectorPid _ _).1
  | probed => exact ⟨agrees.consistent, agrees.active, agrees.stored⟩
  | snapped followed =>
    rcases followed.capture with same | ⟨automatic, -, applied⟩
    · rw [same]
      exact agrees
    · rw [applied]
      exact (agrees.apply collectorPid automatic _).1

end

end Runs

/-! ### Order and atomicity -/

theorem kernel_of_error {agent : Agent cpus} {config : CaptureConfig} {error : ApplyError}
    (agrees : agent.capture.Agrees) (newer : agent.activeConfig.generation < config.generation)
    (failed : (agent.kernel.maps.apply collectorPid fails config).2 = .error error) :
    let after := agent.withMaps (agent.kernel.maps.apply collectorPid fails config).1
    after.kernel.config = agent.kernel.config ∧
      ∀ request, after.kernel.maps.matchesRequest request =
        agent.kernel.maps.matchesRequest request := by
  intro after
  obtain ⟨changed, outcome⟩ :=
    FilterMaps.apply_cases collectorPid fails agent.kernel.maps config
  have active : after.kernel.maps.active = agent.kernel.maps.active := by
    rcases outcome with ⟨-, active⟩ | ⟨succeeded, -⟩
    · exact active
    · cases failed.symm.trans succeeded
  have other : agent.kernel.maps.active ≠ config.generation := by
    rw [show agent.kernel.maps.active = agent.activeConfig.generation from agrees.active]
    exact ne_of_lt newer
  have lookup : after.kernel.maps.configs.lookup agent.kernel.maps.active =
      agent.kernel.maps.configs.lookup agent.kernel.maps.active := changed.lookup_of_ne other
  have unchanged (maps : FilterMaps) : maps.withActive maps.active = maps := rfl
  constructor
  · unfold BlockKernel.config FilterMaps.activeFilter
    rw [active, lookup]
  · intro request
    have same := FilterMaps.matchesFilter_of_changedOnly changed agrees.consistent other
      request.pid request.tid request.uid request.device request.bytes
      (operationCode request.operation)
    rw [unchanged, ← active] at same
    exact same

/-- What is said of one step of an agent: a change is to a later generation, a command that is not
applied changes nothing, and an answer names the generation that is active after it. -/
structure Ordered (agent : Agent cpus) (step : AgentStep cpus) (after : Agent cpus) : Prop where
  increases : after.activeConfig ≠ agent.activeConfig →
    agent.activeConfig.generation < after.activeConfig.generation
  atomic : ∀ line fails, step = .control line fails →
    (∀ acknowledgement, after.acknowledgements = agent.acknowledgements ++ [acknowledgement] →
      acknowledgement.outcome = .rejected) →
    after.activeConfig = agent.activeConfig ∧ after.kernel.config = agent.kernel.config ∧
      ∀ request, after.kernel.maps.matchesRequest request =
        agent.kernel.maps.matchesRequest request
  answered : ∀ acknowledgement,
    after.acknowledgements = agent.acknowledgements ++ [acknowledgement] →
      acknowledgement.activeGeneration = after.activeConfig.generation

section

variable {agent after : Agent cpus}

theorem not_answered (silent : after.acknowledgements = agent.acknowledgements)
    (acknowledgement : CaptureControlAck) :
    after.acknowledgements ≠ agent.acknowledgements ++ [acknowledgement] := by
  intro answered
  rw [silent] at answered
  exact absurd (congrArg length answered) (by simp)

theorem Ordered.of_same (step : AgentStep cpus) (config : after.activeConfig = agent.activeConfig)
    (maps : after.kernel.maps = agent.kernel.maps)
    (silent : after.acknowledgements = agent.acknowledgements) : Ordered agent step after where
  increases changed := absurd config changed
  atomic _ _ _ _ := by
    refine ⟨config, ?_, fun _ => ?_⟩
    · unfold BlockKernel.config
      rw [maps]
    · rw [maps]
  answered _ answered := absurd answered (not_answered silent _)

variable {requested : CaptureConfig}

theorem Handled.answered (handled : Handled collectorPid fails agent requested after) :
    ∃ acknowledgement, after.acknowledgements = agent.acknowledgements ++ [acknowledgement] ∧
      acknowledgement.activeGeneration = after.activeConfig.generation ∧
      (acknowledgement.outcome = .applied ↔ rejectedReason agent.activeConfig requested = none ∧
        (agent.kernel.maps.apply collectorPid fails requested).2 = .ok ()) := by
  cases handled with
  | refused generation rejected reason =>
    refine ⟨_, acknowledgements_write _ _, generation, ?_⟩
    rw [rejected]
    refine ⟨nofun, fun accepted => ?_⟩
    rw [accepted.1] at reason
    cases reason
  | unstaged newer failed generation rejected =>
    refine ⟨_, acknowledgements_write _ _, generation, ?_⟩
    rw [rejected, failed]
    exact ⟨nofun, fun accepted => nomatch accepted.2⟩
  | applied accepted succeeded generation outcome =>
    exact ⟨_, acknowledgements_write _ _, generation, fun _ => ⟨accepted, succeeded⟩,
      fun _ => outcome⟩

theorem Handled.ordered (handled : Handled collectorPid fails agent requested after)
    (agrees : agent.capture.Agrees) (step : AgentStep cpus) : Ordered agent step after := by
  obtain ⟨acknowledgement, answered, generation, -⟩ := handled.answered
  have only {other : CaptureControlAck}
      (answered' : after.acknowledgements = agent.acknowledgements ++ [other]) :
      other = acknowledgement :=
    head_eq_of_cons_eq (append_cancel_left (answered'.symm.trans answered))
  refine ⟨fun changed => ?_, fun _ _ _ rejected => ?_,
    fun _ answered' => only answered' ▸ generation⟩
  · cases handled with
    | refused => exact absurd rfl changed
    | unstaged => exact absurd rfl changed
    | applied accepted => exact (rejectedReason_eq_none accepted).1
  · cases handled with
    | refused => exact ⟨rfl, rfl, fun _ => rfl⟩
    | unstaged accepted failed =>
      exact ⟨rfl, kernel_of_error agrees (rejectedReason_eq_none accepted).1 failed⟩
    | applied accepted succeeded generation outcome =>
      cases outcome.symm.trans (rejected _ (acknowledgements_write _ _))

theorem Followed.ordered (followed : Followed collectorPid fails agent after)
    (silent : after.acknowledgements = agent.acknowledgements)
    (unsaturated : agent.activeConfig.generation.val < 2 ^ 64 - 1) (readable : Bool) :
    Ordered agent (.snapshot readable fails) after where
  increases changed := by
    cases followed with
    | stayed config => exact absurd config changed
    | stopped _ _ config => exact absurd config changed
    | switched next _ config =>
      rw [config, next, Fin.lt_def, Word.saturatingAdd_of_lt _ _ (by omega)]
      exact Nat.lt_succ_self _
  atomic _ _ isControl := nomatch isControl
  answered _ answered := absurd answered (not_answered silent _)

end

end Agent

/-- In every run of an agent, each configuration that takes effect is of a later generation than
the one it replaces, a command that is dropped or rejected leaves the configuration of the agent
and the filter of the kernel as they are, and every answer names the generation that is active
after the command. -/
theorem control_changes_are_ordered {cpus : Nat}
    (decode : String → Option CaptureControlCommand) (collectorPid : U32) (sessionId : String)
    {initial : Agent cpus} {initialFails : Nat → Bool}
    (started : Agent.start collectorPid initialFails = .ok initial)
    (history : List (AgentStep cpus)) (step : AgentStep cpus)
    (unsaturated : ∀ readable fails, step = .snapshot readable fails →
      (run (Agent.step decode collectorPid sessionId) initial
        history).activeConfig.generation.val < 2 ^ 64 - 1) :
    let agent := run (Agent.step decode collectorPid sessionId) initial history
    agent.Ordered step (agent.step decode collectorPid sessionId step) := by
  intro agent
  have agrees : agent.capture.Agrees := Agent.agrees_run started history
  have stepped := Agent.stepped_step decode collectorPid sessionId agent step
  generalize agent.step decode collectorPid sessionId step = after at stepped ⊢
  cases stepped with
  | ended => exact .of_same _ rfl rfl rfl
  | dropped => exact .of_same _ rfl rfl rfl
  | handled handled => exact handled.ordered agrees _
  | probed => exact .of_same _ rfl rfl rfl
  | snapped followed silent => exact followed.ordered silent (unsaturated _ _ rfl) _

/-- A command for a generation in basic mode, with a controller that every latency triggers. -/
def triggerable (generation : U64) : CaptureControlCommand :=
  .applyConfig
    { generation := generation
      mode := .basic
      filter := { matchAll := true }
      detail := {}
      trigger := some
        { rule := "p99_total_latency", threshold := 0, consecutiveWindows := 1,
          deepDurationNs := 1, cooldownNs := 1, armingTimeoutNs := 1 } }

/-- Generation 2 is applied, and a request completes. The second snapshot turns the agent to the
deep mode, under generation 3. -/
theorem control_changes_are_ordered_deep :
    ∃ initial : Agent 1, Agent.start 7 (fun _ => false) = .ok initial ∧
      let history : List (AgentStep 1) :=
        [.control "two" fun _ => false, .probe (probeBy .issue 10 100),
          .probe (probeBy .complete 0 200), .snapshot true fun _ => false]
      let agent := run (Agent.step (fun _ => some (triggerable 2)) 7 "s") initial history
      let step : AgentStep 1 := .snapshot true fun _ => false
      let after := agent.step (fun _ => some (triggerable 2)) 7 "s" step
      (agent.activeConfig.generation, agent.activeConfig.mode) = (2, .basic) ∧
        (after.activeConfig.generation, after.activeConfig.mode) = (3, .deep) ∧
        agent.Ordered step after := by
  refine ⟨_, rfl, by decide +kernel, by decide +kernel, ?_⟩
  have started : Agent.start 7 (fun _ => false) = .ok (_ : Agent 1) := rfl
  refine control_changes_are_ordered (fun _ => some (triggerable 2)) 7 "s" started
    [.control "two" fun _ => false, .probe (probeBy .issue 10 100),
      .probe (probeBy .complete 0 200), .snapshot true fun _ => false] _ fun _ _ _ => ?_
  decide +kernel

/-- A command for the last generation. -/
def lastGeneration : CaptureControlCommand := triggerable (Word.ofNat 64 (2 ^ 64 - 1))

/-- The last generation is applied, and a request completes. The second snapshot changes the mode,
and the generation stays the same. -/
theorem mode_changes_within_generation :
    ∃ initial : Agent 1, Agent.start 7 (fun _ => false) = .ok initial ∧
      let agent := run (Agent.step (fun _ => some lastGeneration) 7 "s") initial
        [.control "last" fun _ => false, .probe (probeBy .issue 10 100),
          .probe (probeBy .complete 0 200), .snapshot true fun _ => false]
      let after := agent.step (fun _ => some lastGeneration) 7 "s" (.snapshot true fun _ => false)
      agent.activeConfig.mode = .basic ∧ after.activeConfig.mode = .deep ∧
        after.activeConfig.generation = agent.activeConfig.generation := by
  refine ⟨_, rfl, ?_⟩
  decide +kernel

end EbpfStudio
