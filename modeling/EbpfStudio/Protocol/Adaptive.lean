/-
This file models the controller that decides when a capture goes into detail.

The controller is in one of four states. It waits in the basic state, arms itself at a value above
the threshold, goes deep after enough of them in a row, and returns through a cooldown. A tick tells
it the time alone. `ControllerMove` says which states a call may lead to.
-/

import EbpfStudio.Protocol.CaptureConfig

namespace EbpfStudio

/-- The states of a controller. -/
inductive CaptureState where
  | basic | armed | deep | cooldown
  deriving DecidableEq

structure TriggerRecord where
  tsNs : U64
  fromState : CaptureState
  toState : CaptureState
  rule : String
  observed : U64
  threshold : U64
  consecutiveWindows : U32
  configGeneration : U64
  reason : String
  deriving DecidableEq

/-- The controller with its policy, state and counts. -/
structure AdaptiveController where
  policy : TriggerPolicy
  state : CaptureState
  enteredTsNs : U64
  consecutive : U32
  lastObserved : U64
  deriving DecidableEq

namespace AdaptiveController

def new (policy : TriggerPolicy) : Except TriggerPolicyError AdaptiveController :=
  policy.check.map fun _ =>
    { policy := policy, state := .basic, enteredTsNs := 0, consecutive := 0, lastObserved := 0 }

/-- Enter a state and record it. -/
def transition (controller : AdaptiveController) (tsNs : U64) (toState : CaptureState)
    (observed configGeneration : U64) (reason : String) :
    AdaptiveController × Option TriggerRecord :=
  if controller.state = toState then (controller, none)
  else
    ({ controller with state := toState, enteredTsNs := tsNs },
      some
        { tsNs := tsNs
          fromState := controller.state
          toState := toState
          rule := controller.policy.rule
          observed := observed
          threshold := controller.policy.threshold
          consecutiveWindows := controller.consecutive
          configGeneration := configGeneration
          reason := reason })

/-- Tell the controller the time. -/
def tick (controller : AdaptiveController) (tsNs configGeneration : U64) :
    AdaptiveController × Option TriggerRecord :=
  let elapsed := tsNs.saturatingSub controller.enteredTsNs.val
  match controller.state with
  | .armed =>
    if controller.policy.armingTimeoutNs ≤ elapsed then
      { controller with consecutive := 0 }.transition tsNs .basic controller.lastObserved
        configGeneration "arming_timeout"
    else (controller, none)
  | .deep =>
    if controller.policy.deepDurationNs ≤ elapsed then
      controller.transition tsNs .cooldown controller.lastObserved configGeneration
        "deep_budget_elapsed"
    else (controller, none)
  | .cooldown =>
    if controller.policy.cooldownNs ≤ elapsed then
      controller.transition tsNs .basic controller.lastObserved configGeneration
        "cooldown_elapsed"
    else (controller, none)
  | .basic => (controller, none)

/-- Tell the controller a value. -/
def observe (controller : AdaptiveController) (tsNs observed configGeneration : U64) :
    AdaptiveController × Option TriggerRecord :=
  let controller := { controller with lastObserved := observed }
  match controller.state with
  | .basic =>
    if controller.policy.threshold < observed then
      { controller with consecutive := 1 }.transition tsNs .armed observed configGeneration
        "threshold_observed"
    else controller.tick tsNs configGeneration
  | .armed =>
    if observed ≤ controller.policy.threshold then
      { controller with consecutive := 0 }.transition tsNs .basic observed configGeneration
        "signal_recovered"
    else
      let counted := { controller with consecutive := controller.consecutive.saturatingAdd 1 }
      if counted.policy.consecutiveWindows ≤ counted.consecutive then
        counted.transition tsNs .deep observed configGeneration "consecutive_threshold_exceeded"
      else (counted, none)
  | _ => controller.tick tsNs configGeneration

end AdaptiveController

inductive ControllerCall where
  | observe (tsNs observed configGeneration : U64)
  | tick (tsNs configGeneration : U64)
  deriving DecidableEq

namespace ControllerCall

def tsNs : ControllerCall → U64
  | observe tsNs _ _ => tsNs
  | tick tsNs _ => tsNs

def observed? : ControllerCall → Option U64
  | observe _ observed _ => some observed
  | tick _ _ => none

end ControllerCall

namespace AdaptiveController

def call (controller : AdaptiveController) :
    ControllerCall → AdaptiveController × Option TriggerRecord
  | .observe tsNs observed configGeneration => controller.observe tsNs observed configGeneration
  | .tick tsNs configGeneration => controller.tick tsNs configGeneration

def step (controller : AdaptiveController) (call : ControllerCall) : AdaptiveController :=
  (controller.call call).1

def elapsed (controller : AdaptiveController) (tsNs : U64) : U64 :=
  tsNs.saturatingSub controller.enteredTsNs.val

end AdaptiveController

/-- A call moves a controller: it leaves the state alone, or it enters another one. -/
inductive ControllerMove (before : AdaptiveController) (call : ControllerCall) :
    AdaptiveController → Prop
  /-- Nothing happens: in the basic state nothing above the threshold is observed, and in the
  others a time is not over yet. In the armed state only a tick looks at the time. -/
  | stay {lastObserved : U64}
      (quiet : before.state = .basic → ∀ observed ∈ call.observed?,
        observed ≤ before.policy.threshold)
      (ticked : before.state = .armed → call.observed? = none ∧
        before.elapsed call.tsNs < before.policy.armingTimeoutNs)
      (deepening : before.state = .deep →
        before.elapsed call.tsNs < before.policy.deepDurationNs)
      (cooling : before.state = .cooldown →
        before.elapsed call.tsNs < before.policy.cooldownNs) :
      ControllerMove before call { before with lastObserved := lastObserved }
  | arm {observed : U64} (isBasic : before.state = .basic)
      (observes : call.observed? = some observed) (above : before.policy.threshold < observed) :
      ControllerMove before call
        { before with
          lastObserved := observed, consecutive := 1, state := .armed, enteredTsNs := call.tsNs }
  | count {observed : U64} (isArmed : before.state = .armed)
      (observes : call.observed? = some observed) (above : before.policy.threshold < observed)
      (few : before.consecutive.saturatingAdd 1 < before.policy.consecutiveWindows) :
      ControllerMove before call
        { before with
          lastObserved := observed, consecutive := before.consecutive.saturatingAdd 1 }
  | trigger {observed : U64} (isArmed : before.state = .armed)
      (observes : call.observed? = some observed) (above : before.policy.threshold < observed)
      (enough : before.policy.consecutiveWindows ≤ before.consecutive.saturatingAdd 1) :
      ControllerMove before call
        { before with
          lastObserved := observed, consecutive := before.consecutive.saturatingAdd 1,
          state := .deep, enteredTsNs := call.tsNs }
  | disarm {lastObserved : U64} (isArmed : before.state = .armed)
      (cause : (∃ observed, call.observed? = some observed ∧ observed ≤ before.policy.threshold) ∨
        call.observed? = none ∧ before.policy.armingTimeoutNs ≤ before.elapsed call.tsNs) :
      ControllerMove before call
        { before with
          lastObserved := lastObserved, consecutive := 0, state := .basic,
          enteredTsNs := call.tsNs }
  | cool {lastObserved : U64} (isDeep : before.state = .deep)
      (ended : before.policy.deepDurationNs ≤ before.elapsed call.tsNs) :
      ControllerMove before call
        { before with
          lastObserved := lastObserved, state := .cooldown, enteredTsNs := call.tsNs }
  | rest {lastObserved : U64} (isCooldown : before.state = .cooldown)
      (ended : before.policy.cooldownNs ≤ before.elapsed call.tsNs) :
      ControllerMove before call
        { before with lastObserved := lastObserved, state := .basic, enteredTsNs := call.tsNs }

namespace AdaptiveController

section

variable (controller : AdaptiveController) (call : ControllerCall)

theorem moves_tick (lastObserved configGeneration : U64)
    (quiet : controller.state = .basic →
      ∀ observed ∈ call.observed?, observed ≤ controller.policy.threshold)
    (unobserved : controller.state = .armed → call.observed? = none) :
    ControllerMove controller call
      ({ controller with lastObserved := lastObserved }.tick call.tsNs configGeneration).1 := by
  obtain ⟨policy, state, enteredTsNs, consecutive, last⟩ := controller
  unfold tick
  cases state with
  | basic => exact .stay quiet nofun nofun nofun
  | armed =>
    dsimp only
    split
    · rename_i ended
      exact .disarm rfl (Or.inr ⟨unobserved rfl, ended⟩)
    · rename_i early
      exact .stay quiet (fun isArmed => ⟨unobserved isArmed, not_le.mp early⟩) nofun nofun
  | deep =>
    dsimp only
    split
    · rename_i ended
      exact .cool rfl ended
    · rename_i early
      exact .stay quiet nofun (fun _ => not_le.mp early) nofun
  | cooldown =>
    dsimp only
    split
    · rename_i ended
      exact .rest rfl ended
    · rename_i early
      exact .stay quiet nofun nofun fun _ => not_le.mp early

theorem moves_observe (tsNs observed configGeneration : U64) :
    ControllerMove controller (.observe tsNs observed configGeneration)
      (controller.observe tsNs observed configGeneration).1 := by
  have ticks := moves_tick controller (.observe tsNs observed configGeneration) observed
    configGeneration
  obtain ⟨policy, state, enteredTsNs, consecutive, last⟩ := controller
  unfold observe
  cases state with
  | basic =>
    dsimp only
    split
    · rename_i above
      exact .arm rfl rfl above
    · rename_i under
      refine ticks (fun _ value observes => ?_) nofun
      rw [← Option.some.inj observes]
      exact not_lt.mp under
  | armed =>
    dsimp only
    split
    · rename_i under
      exact .disarm rfl (Or.inl ⟨observed, rfl, under⟩)
    · rename_i above
      split
      · rename_i enough
        exact .trigger rfl rfl (not_le.mp above) enough
      · rename_i few
        exact .count rfl rfl (not_le.mp above) (not_le.mp few)
  | deep => exact ticks nofun nofun
  | cooldown => exact ticks nofun nofun

theorem moves_step :
    ControllerMove controller call (controller.step call) := by
  cases call with
  | observe tsNs observed configGeneration =>
    exact moves_observe controller tsNs observed configGeneration
  | tick tsNs configGeneration =>
    exact moves_tick controller (.tick tsNs configGeneration) controller.lastObserved
      configGeneration (fun _ _ observes => nomatch observes) fun _ => rfl

theorem policy_step :
    (controller.step call).policy = controller.policy := by
  have moves := moves_step controller call
  generalize controller.step call = after at moves ⊢
  cases moves <;> rfl

end

end AdaptiveController

end EbpfStudio
