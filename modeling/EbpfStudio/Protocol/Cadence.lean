/-
This file proves when the adaptive controller goes deep.

`Streak` says what the counter of an armed controller means: the calls since it was last basic have
observed so many values, all above the threshold. With the edges between the states this gives the
cadence of a run, and for two or more observations the exact moment. How long a controller has been
armed is looked at by ticks only.
-/

import EbpfStudio.Protocol.Adaptive
import EbpfStudio.Library.Run

namespace EbpfStudio

open Run List Word AdaptiveController

namespace AdaptiveController

structure IsNew (policy : TriggerPolicy) (controller : AdaptiveController) : Prop where
  policy : controller.policy = policy
  isBasic : controller.state = .basic
  entered : controller.enteredTsNs = 0

variable {start : AdaptiveController}

theorem isNew_of_new {policy : TriggerPolicy} (created : new policy = .ok start) :
    IsNew policy start := by
  unfold new at created
  cases checked : policy.check with
  | error error =>
    rw [checked] at created
    cases created
  | ok done =>
    rw [checked] at created
    cases created
    exact ⟨rfl, rfl, rfl⟩

/-! ### Histories of calls -/

/-- The state after some calls. -/
def stateAfter (start : AdaptiveController) (calls : List ControllerCall) : CaptureState :=
  (run step start calls).state

theorem policy_run (start : AdaptiveController) (calls : List ControllerCall) :
    (run step start calls).policy = start.policy := by
  refine run_induction (fun _ (controller : AdaptiveController) =>
    controller.policy = start.policy) rfl ?_ calls
  intro history call same
  exact (policy_step _ call).trans same

structure SinceBasic (start : AdaptiveController) (calls before since : List ControllerCall) :
    Prop where
  split : calls = before ++ since
  isBasic : stateAfter start before = .basic
  last : ∀ earlier later, since = earlier ++ later → earlier ≠ [] →
    stateAfter start (before ++ earlier) ≠ .basic

/-- A call makes the controller go deep. -/
def EntersDeep (start : AdaptiveController) (history : List ControllerCall)
    (call : ControllerCall) : Prop :=
  stateAfter start history ≠ .deep ∧ stateAfter start (history ++ [call]) = .deep

instance (start : AdaptiveController) (history : List ControllerCall) (call : ControllerCall) :
    Decidable (EntersDeep start history call) :=
  inferInstanceAs (Decidable (_ ∧ _))

/-- The values that calls observe. -/
def observations (calls : List ControllerCall) : List U64 := calls.filterMap (·.observed?)

section Histories

variable {start : AdaptiveController} {history before since : List ControllerCall}
  {call : ControllerCall}

theorem SinceBasic.eq_nil (sinceBasic : SinceBasic start history before since)
    (isBasic : stateAfter start history = .basic) : since = [] := by
  by_contra some
  refine sinceBasic.last since [] (append_nil since).symm some ?_
  rw [← sinceBasic.split]
  exact isBasic

theorem sinceBasic_of_basic (isBasic : stateAfter start history = .basic) :
    SinceBasic start history history [] where
  split := (append_nil history).symm
  isBasic := isBasic
  last := fun _ _ split some => absurd (append_eq_nil_iff.mp split.symm).1 some

theorem SinceBasic.snoc (sinceBasic : SinceBasic start history before since)
    (left : stateAfter start (history ++ [call]) ≠ .basic) :
    SinceBasic start (history ++ [call]) before (since ++ [call]) where
  split := by rw [sinceBasic.split, List.append_assoc]
  isBasic := sinceBasic.isBasic
  last := by
    intro earlier later split some
    rcases eq_nil_or_concat later with rfl | ⟨middle, final, rfl⟩
    · rw [← (split.trans (append_nil earlier)), ← append_assoc, ← sinceBasic.split]
      exact left
    · rw [concat_eq_append, ← append_assoc] at split
      exact sinceBasic.last earlier middle (append_inj' split rfl).1 some

theorem SinceBasic.of_snoc (sinceBasic : SinceBasic start (history ++ [call]) before since) :
    since = [] ∧ stateAfter start (history ++ [call]) = .basic ∨
      ∃ earlier, since = earlier ++ [call] ∧ SinceBasic start history before earlier := by
  rcases eq_nil_or_concat since with rfl | ⟨earlier, final, rfl⟩
  · refine .inl ⟨rfl, ?_⟩
    rw [sinceBasic.split, append_nil]
    exact sinceBasic.isBasic
  · have split := sinceBasic.split
    rw [concat_eq_append, ← append_assoc] at split
    obtain ⟨same, lastly⟩ := append_inj' split rfl
    cases lastly
    refine .inr ⟨earlier, concat_eq_append, same, sinceBasic.isBasic, ?_⟩
    intro first later split some
    refine sinceBasic.last first (later ++ [call]) ?_ some
    rw [concat_eq_append, split, append_assoc]

theorem exists_sinceBasic (isBasic : start.state = .basic) (history : List ControllerCall) :
    ∃ before since, SinceBasic start history before since := by
  induction history using reverseRecOn with
  | nil => exact ⟨[], [], sinceBasic_of_basic isBasic⟩
  | append_singleton history call hypothesis =>
    obtain ⟨before, since, sinceBasic⟩ := hypothesis
    by_cases basic : stateAfter start (history ++ [call]) = .basic
    · exact ⟨history ++ [call], [], sinceBasic_of_basic basic⟩
    · exact ⟨before, since ++ [call], sinceBasic.snoc basic⟩

theorem moves_run (start : AdaptiveController) (history : List ControllerCall)
    (call : ControllerCall) :
    ControllerMove (run step start history) call (run step start (history ++ [call])) := by
  rw [run_snoc]
  exact moves_step _ call

end Histories

/-! ### Counting observations -/

/-- What the count of a controller says of the calls since it was last in the basic state. -/
structure Streak (controller : AdaptiveController) (since : List ControllerCall) : Prop where
  entered : controller.state = .armed →
    since.head?.map (·.tsNs) = some controller.enteredTsNs
  counted : controller.state = .armed →
    controller.consecutive.val = (observations since).length
  above : controller.state = .armed → ∀ observed ∈ observations since,
    controller.policy.threshold < observed
  few : controller.state = .armed →
    controller.consecutive < controller.policy.consecutiveWindows ∨ controller.consecutive = 1
  past : controller.state = .deep ∨ controller.state = .cooldown →
    (∀ observed ∈ observations since, controller.policy.threshold < observed) →
    controller.policy.consecutiveWindows.val ≤ (observations since).length

theorem streak_of_basic {controller : AdaptiveController} {since : List ControllerCall}
    (isBasic : controller.state = .basic) : Streak controller since := by
  constructor <;> simp [isBasic]

theorem observations_snoc (since : List ControllerCall) (call : ControllerCall) :
    observations (since ++ [call]) = observations since ++ call.observed?.toList :=
  filterMap_snoc _ since call

section Move

variable {controller next : AdaptiveController} {since : List ControllerCall}
  {call : ControllerCall}

theorem observations_of_observed {observed : U64} (observes : call.observed? = some observed) :
    observations (since ++ [call]) = observations since ++ [observed] := by
  rw [observations_snoc, observes]
  rfl

theorem Streak.past_snoc (streak : Streak controller since)
    (isPast : controller.state = .deep ∨ controller.state = .cooldown)
    (above : ∀ observed ∈ observations (since ++ [call]), controller.policy.threshold < observed) :
    controller.policy.consecutiveWindows.val ≤ (observations (since ++ [call])).length := by
  rw [observations_snoc] at above ⊢
  have before := streak.past isPast fun observed member =>
    above observed (mem_append_left _ member)
  rw [length_append]
  omega

theorem Streak.head_snoc (streak : Streak controller since) (isArmed : controller.state = .armed) :
    (since ++ [call]).head?.map (·.tsNs) = some controller.enteredTsNs := by
  have entered := streak.entered isArmed
  cases since with
  | nil => cases entered
  | cons first rest => exact entered

section

variable (streak : Streak controller since) (isArmed : controller.state = .armed) {observed : U64}
  (observes : call.observed? = some observed)

include streak isArmed observes

theorem Streak.above_snoc (above : controller.policy.threshold < observed) :
    ∀ value ∈ observations (since ++ [call]), controller.policy.threshold < value := by
  rw [observations_of_observed observes]
  exact forall_mem_snoc (streak.above isArmed) above

theorem Streak.enough
    (enough : controller.policy.consecutiveWindows ≤ controller.consecutive.saturatingAdd 1) :
    controller.policy.consecutiveWindows.val ≤ (observations (since ++ [call])).length := by
  have counted := streak.counted isArmed
  rw [Fin.le_def, saturatingAdd_val] at enough
  rw [observations_of_observed observes, length_append, length_singleton]
  omega

theorem Streak.length_eq (several : 2 ≤ controller.policy.consecutiveWindows.val)
    (reached : controller.policy.consecutiveWindows.val ≤ (observations (since ++ [call])).length) :
    (observations (since ++ [call])).length = controller.policy.consecutiveWindows.val := by
  have counted := streak.counted isArmed
  rw [observations_of_observed observes, length_append, length_singleton] at reached ⊢
  rcases streak.few isArmed with fewer | one
  · rw [Fin.lt_def] at fewer
    omega
  · rw [one] at counted
    have single : (observations since).length = 1 := counted.symm
    omega

end

section

variable (streak : Streak controller since) (fresh : controller.state = .basic → since = [])
  (moves : ControllerMove controller call next)

include streak fresh moves

theorem Streak.move : Streak next (since ++ [call]) := by
  cases moves with
  | stay quiet ticked =>
    have silent (isArmed : controller.state = .armed) :
        observations (since ++ [call]) = observations since := by
      rw [observations_snoc, (ticked isArmed).1]
      exact append_nil _
    exact
      { entered := fun isArmed => streak.head_snoc isArmed
        counted := fun isArmed => (streak.counted isArmed).trans (by rw [silent isArmed])
        above := fun isArmed => (by rw [silent isArmed]; exact streak.above isArmed)
        few := streak.few
        past := fun isPast above => streak.past_snoc isPast above }
  | @arm observed isBasic observes above =>
    rw [fresh isBasic]
    exact
      { entered := fun _ => rfl
        counted := fun _ => (by rw [observations_of_observed observes]; rfl)
        above := fun _ value member => (by
          rw [observations_of_observed observes] at member
          rw [mem_singleton.mp member]
          exact above)
        few := fun _ => .inr rfl
        past := fun isPast => isPast.elim nofun nofun }
  | @count observed isArmed observes above few =>
    have counted := streak.counted isArmed
    have more : (controller.consecutive.saturatingAdd 1).val = controller.consecutive.val + 1 := by
      have bound := controller.policy.consecutiveWindows.isLt
      rw [Fin.lt_def, saturatingAdd_val] at few
      rw [saturatingAdd_val]
      omega
    exact
      { entered := fun _ => streak.head_snoc isArmed
        counted := fun _ => (by
          rw [observations_of_observed observes, length_append, length_singleton,
            ← counted]
          exact more)
        above := fun _ => streak.above_snoc isArmed observes above
        few := fun _ => .inl few
        past := fun isPast => (by simp [isArmed] at isPast) }
  | trigger isArmed observes above enough =>
    have reached := streak.enough isArmed observes enough
    exact
      { entered := nofun, counted := nofun, above := nofun, few := nofun
        past := fun _ _ => reached }
  | disarm => exact streak_of_basic rfl
  | cool isDeep =>
    exact
      { entered := nofun, counted := nofun, above := nofun, few := nofun
        past := fun _ above => streak.past_snoc (.inl isDeep) above }
  | rest => exact streak_of_basic rfl

theorem Streak.deep_of_last {observed : U64} (observes : call.observed? = some observed)
    (above : controller.policy.threshold < observed)
    (allAbove : ∀ value ∈ observations since, controller.policy.threshold < value)
    (several : 2 ≤ controller.policy.consecutiveWindows.val)
    (last : (observations since).length + 1 = controller.policy.consecutiveWindows.val) :
    controller.state = .armed ∧ next.state = .deep := by
  have notPast : ¬ (controller.state = .deep ∨ controller.state = .cooldown) := by
    intro isPast
    have reached := streak.past isPast allAbove
    omega
  cases moves with
  | stay quiet ticked =>
    cases inState : controller.state with
    | basic => exact absurd above (not_lt.mpr (quiet inState observed observes))
    | armed => cases observes.symm.trans (ticked inState).1
    | deep => exact absurd (.inl inState) notPast
    | cooldown => exact absurd (.inr inState) notPast
  | arm isBasic =>
    rw [fresh isBasic] at last
    have one : 1 = controller.policy.consecutiveWindows.val := last
    omega
  | count isArmed _ _ few =>
    have counted := streak.counted isArmed
    have bound := controller.policy.consecutiveWindows.isLt
    rw [Fin.lt_def, saturatingAdd_val] at few
    omega
  | trigger isArmed => exact ⟨isArmed, rfl⟩
  | disarm isArmed cause =>
    rcases cause with ⟨value, same, under⟩ | ⟨unobserved, -⟩
    · cases observes.symm.trans same
      exact absurd above (not_lt.mpr under)
    · cases observes.symm.trans unobserved
  | cool isDeep => exact absurd (.inl isDeep) notPast
  | rest isCooldown => exact absurd (.inr isCooldown) notPast

end

end Move

theorem streak_run (isBasic : start.state = .basic) {history before since : List ControllerCall}
    (sinceBasic : SinceBasic start history before since) :
    Streak (run step start history) since := by
  induction history using reverseRecOn generalizing since with
  | nil => exact streak_of_basic isBasic
  | append_singleton history call hypothesis =>
    rcases sinceBasic.of_snoc with ⟨-, basic⟩ | ⟨earlier, rfl, sinceEarlier⟩
    · exact streak_of_basic basic
    · exact (hypothesis sinceEarlier).move (fun basic => sinceEarlier.eq_nil basic)
        (moves_run start history call)

/-! ### Edges and times -/

variable {history : List ControllerCall}

theorem trigger_of_entersDeep {call : ControllerCall} (enters : EntersDeep start history call) :
    ∃ observed, stateAfter start history = .armed ∧ call.observed? = some observed ∧
      start.policy.threshold < observed ∧
      start.policy.consecutiveWindows ≤
        (run step start history).consecutive.saturatingAdd 1 ∧
      (run step start (history ++ [call])).enteredTsNs = call.tsNs := by
  obtain ⟨shallow, deep⟩ := enters
  have moves := moves_run start history call
  rw [← policy_run start history]
  unfold stateAfter at shallow deep ⊢
  generalize run step start (history ++ [call]) = after at moves deep ⊢
  cases moves with
  | stay => exact absurd deep shallow
  | arm => cases deep
  | count isArmed => exact absurd deep shallow
  | trigger isArmed observes above enough => exact ⟨_, isArmed, observes, above, enough, rfl⟩
  | disarm => cases deep
  | cool => cases deep
  | rest => cases deep

/-- The calls since the basic state, up to the one with which the controller goes deep, observe
as often as the policy asks for, and only values above the threshold. -/
theorem streak_of_entersDeep (isBasic : start.state = .basic) {call : ControllerCall}
    (enters : EntersDeep start history call) :
    ∃ before since, SinceBasic start (history ++ [call]) before (since ++ [call]) ∧
      Streak (run step start history) since ∧
      start.policy.consecutiveWindows.val ≤ (observations (since ++ [call])).length ∧
      ∀ value ∈ observations (since ++ [call]), start.policy.threshold < value := by
  obtain ⟨observed, isArmed, observes, above, enough, -⟩ := trigger_of_entersDeep enters
  obtain ⟨before, since, sinceBasic⟩ := exists_sinceBasic isBasic history
  have streak := streak_run isBasic sinceBasic
  rw [← policy_run start history] at above enough ⊢
  refine ⟨before, since, sinceBasic.snoc ?_, streak, streak.enough isArmed observes enough,
    streak.above_snoc isArmed observes above⟩
  rw [enters.2]
  nofun

end AdaptiveController

/-- The edges between the states. -/
def CaptureState.leadsTo : CaptureState → CaptureState → Bool
  | .basic, .armed => true
  | .armed, .basic => true
  | .armed, .deep => true
  | .deep, .cooldown => true
  | .cooldown, .basic => true
  | _, _ => false

/-- How much time has passed since the last entry into the deep state when a state is entered. -/
def TriggerPolicy.spent (policy : TriggerPolicy) : CaptureState → Nat
  | .deep => 0
  | .cooldown => policy.deepDurationNs.val
  | _ => policy.deepDurationNs.val + policy.cooldownNs.val

namespace AdaptiveController

theorem stateAfter_snoc (start : AdaptiveController) (history : List ControllerCall)
    (call : ControllerCall) :
    stateAfter start (history ++ [call]) = stateAfter start history ∨
      (stateAfter start history).leadsTo (stateAfter start (history ++ [call])) = true := by
  have moves := moves_run start history call
  unfold stateAfter
  generalize run step start (history ++ [call]) = after at moves ⊢
  cases moves with
  | stay => exact .inl rfl
  | arm isBasic => exact .inr (by rw [isBasic]; rfl)
  | count => exact .inl rfl
  | trigger isArmed => exact .inr (by rw [isArmed]; rfl)
  | disarm isArmed => exact .inr (by rw [isArmed]; rfl)
  | cool isDeep => exact .inr (by rw [isDeep]; rfl)
  | rest isCooldown => exact .inr (by rw [isCooldown]; rfl)

section Times

variable {controller next : AdaptiveController} {call : ControllerCall}

theorem enteredTsNs_of_move (moves : ControllerMove controller call next) :
    next.enteredTsNs = controller.enteredTsNs ∨ next.enteredTsNs = call.tsNs := by
  cases moves with
  | stay => exact .inl rfl
  | count => exact .inl rfl
  | _ => exact .inr rfl

theorem spent_of_move (moves : ControllerMove controller call next)
    (forward : controller.enteredTsNs ≤ call.tsNs) {time : Nat}
    (spent : time + controller.policy.spent controller.state ≤ controller.enteredTsNs.val) :
    time + controller.policy.spent next.state ≤ next.enteredTsNs.val := by
  have later : controller.enteredTsNs.val ≤ call.tsNs.val := forward
  cases moves with
  | stay => exact spent
  | count => exact spent
  | arm isBasic =>
    rw [isBasic] at spent
    exact spent.trans later
  | trigger isArmed =>
    exact (Nat.le_of_add_right_le spent).trans later
  | disarm isArmed =>
    rw [isArmed] at spent
    exact spent.trans later
  | cool isDeep ended =>
    rw [isDeep] at spent
    have reached : time ≤ controller.enteredTsNs.val := spent
    have passed := Nat.le_sub_iff_add_le later |>.mp (Fin.le_def.mp ended)
    show time + controller.policy.deepDurationNs.val ≤ call.tsNs.val
    omega
  | rest isCooldown ended =>
    rw [isCooldown] at spent
    have reached : time + controller.policy.deepDurationNs.val ≤ controller.enteredTsNs.val :=
      spent
    have passed := Nat.le_sub_iff_add_le later |>.mp (Fin.le_def.mp ended)
    show time + (controller.policy.deepDurationNs.val + controller.policy.cooldownNs.val) ≤
      call.tsNs.val
    omega

end Times

def Forward (calls : List ControllerCall) : Prop :=
  calls.Pairwise fun first second => first.tsNs ≤ second.tsNs

section Runs

variable {start : AdaptiveController} {history : List ControllerCall} {call : ControllerCall}

theorem enteredTsNs_run_le (initially : start.enteredTsNs = 0)
    (forward : Forward (history ++ [call])) :
    (run step start history).enteredTsNs ≤ call.tsNs := by
  induction history using reverseRecOn with
  | nil => exact initially ▸ Fin.zero_le _
  | append_singleton earlier last hypothesis =>
    have ordered := pairwise_append.mp forward
    have lastBefore : last.tsNs ≤ call.tsNs :=
      ordered.2.2 last mem_concat_self call mem_cons_self
    have before := hypothesis (pairwise_append.mpr
      ⟨(pairwise_append.mp ordered.1).1, pairwise_singleton _ _,
        fun other member final => ordered.2.2 other (mem_append_left _ member) final⟩)
    rcases enteredTsNs_of_move (moves_run start earlier last) with same | now
    · rw [same]
      exact before
    · rw [now]
      exact lastBefore

theorem spent_run (initially : start.enteredTsNs = 0) (forward : Forward history)
    {first rest : List ControllerCall} {entry : ControllerCall}
    (split : history = first ++ entry :: rest) (enters : EntersDeep start first entry) :
    entry.tsNs.val + start.policy.spent (stateAfter start history) ≤
      (run step start history).enteredTsNs.val := by
  induction history using reverseRecOn generalizing rest with
  | nil => exact absurd split (append_ne_nil_of_right_ne_nil _ (cons_ne_nil _ _)).symm
  | append_singleton history call hypothesis =>
    rcases eq_or_exists_of_snoc_eq split with ⟨rfl, rfl⟩ | ⟨middle, earlier⟩
    · obtain ⟨-, -, -, -, -, entered⟩ := trigger_of_entersDeep enters
      rw [entered, enters.2]
      exact le_refl _
    · have before := hypothesis (pairwise_append.mp forward).1 earlier
      rw [← policy_run start history] at before ⊢
      exact spent_of_move (moves_run start history call) (enteredTsNs_run_le initially forward)
        before

end Runs

end AdaptiveController

open AdaptiveController

/-- Whatever the calls in the order of time, the state changes only along the edges, a deep phase
and a cooldown lie between two entries into the deep state, and the deep state is entered only
after as many observations in a row above the threshold as the policy asks for, all since the
controller was last in the basic state. -/
theorem adaptive_cadence {policy : TriggerPolicy} {start : AdaptiveController}
    (created : AdaptiveController.new policy = .ok start) {calls : List ControllerCall}
    (forward : Forward calls) :
    (∀ history call rest, calls = history ++ call :: rest →
        stateAfter start (history ++ [call]) = stateAfter start history ∨
          (stateAfter start history).leadsTo (stateAfter start (history ++ [call])) = true) ∧
      (∀ first entry middle again rest, calls = first ++ entry :: middle ++ again :: rest →
        EntersDeep start first entry → EntersDeep start (first ++ entry :: middle) again →
        entry.tsNs.val + (policy.deepDurationNs.val + policy.cooldownNs.val) ≤ again.tsNs.val) ∧
      ∀ history call rest, calls = history ++ call :: rest → EntersDeep start history call →
        ∃ before since, SinceBasic start (history ++ [call]) before since ∧
          policy.consecutiveWindows.val ≤ (observations since).length ∧
          ∀ observed ∈ observations since, policy.threshold < observed := by
  obtain ⟨rfl, isBasic, initially⟩ := isNew_of_new created
  refine ⟨fun history call _ _ => stateAfter_snoc start history call, ?_, ?_⟩
  · intro first entry middle again rest split enters entersAgain
    have ordered : Forward (first ++ entry :: middle ++ [again]) := by
      refine Pairwise.sublist ?_ forward
      rw [split]
      exact (sublist_append_left [again] rest).append_left _
    have spent := spent_run initially (pairwise_append.mp ordered).1 rfl enters
    obtain ⟨_, isArmed, -⟩ := trigger_of_entersDeep entersAgain
    rw [isArmed] at spent
    exact spent.trans (enteredTsNs_run_le initially ordered)
  · intro history call rest _ enters
    obtain ⟨before, since, sinceBasic, -, reached, above⟩ := streak_of_entersDeep isBasic enters
    exact ⟨before, since ++ [call], sinceBasic, reached, above⟩

def testPolicy (consecutiveWindows : U32) : TriggerPolicy where
  rule := "p99_total"
  threshold := 5_000_000
  consecutiveWindows := consecutiveWindows
  deepDurationNs := 10_000
  cooldownNs := 5_000
  armingTimeoutNs := 4_000

def testController (consecutiveWindows : U32) : AdaptiveController where
  policy := testPolicy consecutiveWindows
  state := .basic
  enteredTsNs := 0
  consecutive := 0
  lastObserved := 0

theorem adaptive_cadence_twice :
    let first : List ControllerCall := [.observe 1_000 6_000_000 2]
    let entry : ControllerCall := .observe 2_000 7_000_000 2
    let middle : List ControllerCall :=
      [.tick 12_000 2, .tick 17_000 2, .observe 18_000 6_000_000 2]
    let again : ControllerCall := .observe 19_000 6_000_000 2
    EntersDeep (testController 2) first entry ∧
      EntersDeep (testController 2) (first ++ entry :: middle) again ∧
      entry.tsNs.val + (10_000 + 5_000) ≤ again.tsNs.val := by
  intro first entry middle again
  have enters : EntersDeep (testController 2) first entry := by decide +kernel
  have entersAgain : EntersDeep (testController 2) (first ++ entry :: middle) again := by
    decide +kernel
  have created : new (testPolicy 2) = .ok (testController 2) := by
    decide +kernel
  have forward : Forward (first ++ entry :: middle ++ [again]) := by
    unfold Forward
    decide +kernel
  exact ⟨enters, entersAgain,
    (adaptive_cadence created forward).2.1 first entry middle again [] rfl enters entersAgain⟩

/-- When the policy asks for two or more observations, the controller goes deep at exactly the
observation with which all since it was last in the basic state are above the threshold and are
as many as the policy asks for. -/
theorem deep_starts_on_time {policy : TriggerPolicy} {start : AdaptiveController}
    (created : AdaptiveController.new policy = .ok start)
    (several : 2 ≤ policy.consecutiveWindows) (history : List ControllerCall)
    (tsNs observed configGeneration : U64) :
    let call : ControllerCall := .observe tsNs observed configGeneration
    EntersDeep start history call ↔
      ∃ before since, SinceBasic start (history ++ [call]) before since ∧
        (∀ value ∈ observations since, policy.threshold < value) ∧
        (observations since).length = policy.consecutiveWindows.val := by
  obtain ⟨rfl, isBasic, initially⟩ := isNew_of_new created
  intro call
  have observes : call.observed? = some observed := rfl
  have two : 2 ≤ start.policy.consecutiveWindows.val := several
  constructor
  · intro enters
    obtain ⟨_, isArmed, -⟩ := trigger_of_entersDeep enters
    obtain ⟨before, since, sinceBasic, streak, reached, above⟩ :=
      streak_of_entersDeep isBasic enters
    refine ⟨before, since ++ [call], sinceBasic, above, ?_⟩
    rw [← policy_run start history] at reached two ⊢
    exact streak.length_eq isArmed observes two reached
  · rintro ⟨before, since, sinceBasic, above, length⟩
    rcases sinceBasic.of_snoc with ⟨rfl, -⟩ | ⟨earlier, rfl, sinceEarlier⟩
    · rw [← length] at two
      exact absurd two (by decide)
    · have streak := streak_run isBasic sinceEarlier
      rw [← policy_run start history] at above length two
      have shorter : (observations earlier).length + 1 =
          (run step start history).policy.consecutiveWindows.val := by
        rw [← length, observations_of_observed observes, length_append,
          length_singleton]
      have lastAbove : (run step start history).policy.threshold < observed := by
        refine above observed ?_
        rw [observations_of_observed observes]
        exact mem_concat_self
      have earlierAbove : ∀ value ∈ observations earlier,
          (run step start history).policy.threshold < value := by
        intro value member
        refine above value ?_
        rw [observations_snoc]
        exact mem_append_left _ member
      obtain ⟨isArmed, isDeep⟩ := streak.deep_of_last sinceEarlier.eq_nil
        (moves_run start history call) observes lastAbove earlierAbove two shorter
      refine ⟨?_, isDeep⟩
      unfold stateAfter
      rw [isArmed]
      nofun

theorem deep_starts_on_time_second :
    let history : List ControllerCall := [.observe 1_000 6_000_000 2]
    let call : ControllerCall := .observe 2_000 7_000_000 2
    EntersDeep (testController 2) history call ∧
      ∃ before since, SinceBasic (testController 2) (history ++ [call]) before since ∧
        (∀ value ∈ observations since, (testPolicy 2).threshold < value) ∧
        (observations since).length = (testPolicy 2).consecutiveWindows.val := by
  intro history call
  have enters : EntersDeep (testController 2) history call := by decide +kernel
  have created : new (testPolicy 2) = .ok (testController 2) := by
    decide +kernel
  exact ⟨enters, (deep_starts_on_time created (by decide) history 2_000 7_000_000 2).mp enters⟩

/-- The policy asks for one observation above the threshold. The first one only arms the
controller, and the second one makes it go deep. -/
theorem single_window_starts_late :
    let first : ControllerCall := .observe 1_000 6_000_000 2
    let second : ControllerCall := .observe 2_000 6_000_000 2
    AdaptiveController.new (testPolicy 1) = .ok (testController 1) ∧
      observations [first] = [6_000_000] ∧ (testPolicy 1).threshold < 6_000_000 ∧
      stateAfter (testController 1) [first] = .armed ∧
      EntersDeep (testController 1) [first] second := by
  decide +kernel

/-! ### The arming timeout -/

/-- Every observation follows a tick at its own time. -/
def TicksFirst (calls : List ControllerCall) : Prop :=
  StepsMeet (fun history call => call.observed? ≠ none →
    ∃ earlier configGeneration, history = earlier ++ [.tick call.tsNs configGeneration]) calls

theorem armed_of_tick {controller : AdaptiveController} {tsNs configGeneration : U64}
    (isArmed : (controller.step (.tick tsNs configGeneration)).state = .armed) :
    (controller.step (.tick tsNs configGeneration)).enteredTsNs = controller.enteredTsNs ∧
      controller.elapsed tsNs < controller.policy.armingTimeoutNs := by
  have moves := moves_step controller (.tick tsNs configGeneration)
  generalize controller.step (.tick tsNs configGeneration) = after at moves isArmed ⊢
  cases moves with
  | stay _ ticked => exact ⟨rfl, (ticked isArmed).2⟩
  | arm _ observes => cases observes
  | count _ observes => cases observes
  | trigger => cases isArmed
  | disarm => cases isArmed
  | cool => cases isArmed
  | rest => cases isArmed

/-- The observations follow each other within a gap. -/
def ObservedWithin (gap : Nat) (calls : List ControllerCall) : Prop :=
  (calls.filter fun call => call.observed?.isSome).IsChain fun earlier later =>
    later.tsNs.val ≤ earlier.tsNs.val + gap

theorem tsNs_le_of_isChain {gap : Nat} {first last : ControllerCall}
    {middle : List ControllerCall}
    (chain : (first :: (middle ++ [last])).IsChain fun earlier later =>
      later.tsNs.val ≤ earlier.tsNs.val + gap) :
    last.tsNs.val ≤ first.tsNs.val + (middle.length + 1) * gap := by
  induction middle generalizing first with
  | nil =>
    have near := (isChain_cons_cons.mp chain).1
    rwa [length_nil, zero_add, one_mul]
  | cons next rest hypothesis =>
    obtain ⟨near, others⟩ := isChain_cons_cons.mp chain
    have further := hypothesis others
    rw [length_cons, Nat.succ_mul]
    omega

/-- Only an observation takes a controller out of the basic state. -/
theorem isSome_observed_of_leaves {controller : AdaptiveController} {call : ControllerCall}
    (isBasic : controller.state = .basic) (leaves : (controller.step call).state ≠ .basic) :
    call.observed?.isSome = true := by
  have moves := moves_step controller call
  generalize controller.step call = after at moves leaves
  cases moves with
  | stay => exact absurd isBasic leaves
  | arm _ observes => rw [observes]; rfl
  | count isArmed => rw [isBasic] at isArmed; cases isArmed
  | trigger isArmed => rw [isBasic] at isArmed; cases isArmed
  | disarm => exact absurd rfl leaves
  | cool isDeep => rw [isBasic] at isDeep; cases isDeep
  | rest => exact absurd rfl leaves

/-- From the call that arms the controller to the one that makes it go deep there are fewer
observations than the policy asks for, or one. -/
theorem tsNs_le_of_observedWithin {start : AdaptiveController} {gap : Nat}
    {before between rest : List ControllerCall} {arming call : ControllerCall}
    (regular : ObservedWithin gap (before ++ arming :: between ++ call :: rest))
    (isBasic : start.state = .basic)
    (sinceBasic : SinceBasic start (before ++ arming :: between) before (arming :: between))
    (isArmed : stateAfter start (before ++ arming :: between) = .armed)
    (observes : call.observed?.isSome = true) :
    call.tsNs.val ≤
      arming.tsNs.val + max (start.policy.consecutiveWindows.val - 1) 1 * gap := by
  have armsBy : arming.observed?.isSome = true := by
    refine isSome_observed_of_leaves sinceBasic.isBasic ?_
    have left := sinceBasic.last [arming] between rfl (by simp)
    unfold stateAfter at left
    rwa [run_snoc] at left
  have streak := streak_run isBasic sinceBasic
  have first : (arming :: between).filter (fun call => call.observed?.isSome) =
      arming :: between.filter fun call => call.observed?.isSome := filter_cons_of_pos armsBy
  have last : (call :: rest).filter (fun call => call.observed?.isSome) =
      [call] ++ rest.filter fun call => call.observed?.isSome := filter_cons_of_pos observes
  have number : (observations (arming :: between)).length =
      (between.filter fun call => call.observed?.isSome).length + 1 := by
    rw [observations, length_filterMap_eq_countP, countP_eq_length_filter, first, length_cons]
  have most : (between.filter fun call => call.observed?.isSome).length + 1 ≤
      max (start.policy.consecutiveWindows.val - 1) 1 := by
    rw [← number, ← streak.counted isArmed, ← policy_run start (before ++ arming :: between)]
    rcases streak.few isArmed with fewer | one
    · exact (Nat.le_sub_one_of_lt fewer).trans (le_max_left _ _)
    · rw [one]
      exact le_max_right _ _
  unfold ObservedWithin at regular
  rw [filter_append, filter_append, first, last, append_assoc, ← append_assoc (arming :: _)]
    at regular
  have reached := tsNs_le_of_isChain regular.right_of_append.left_of_append
  exact reached.trans (Nat.add_le_add_left (Nat.mul_le_mul_right gap most) _)

/-- When every observation is preceded by a tick at the same time, or the observations that the
policy asks for come within the arming timeout, the controller goes deep only before this timeout,
counted from the call that armed it. -/
theorem arming_timeout_is_honoured {policy : TriggerPolicy} {start : AdaptiveController}
    (created : AdaptiveController.new policy = .ok start) {calls : List ControllerCall}
    (timely : TicksFirst calls ∨ ∃ gap, ObservedWithin gap calls ∧
      max (policy.consecutiveWindows.val - 1) 1 * gap < policy.armingTimeoutNs.val)
    {before between rest : List ControllerCall}
    {arming call : ControllerCall} (split : calls = before ++ arming :: between ++ call :: rest)
    (sinceBasic : SinceBasic start (before ++ arming :: between) before (arming :: between))
    (enters : EntersDeep start (before ++ arming :: between) call) :
    call.tsNs.val < arming.tsNs.val + policy.armingTimeoutNs.val := by
  obtain ⟨rfl, isBasic, -⟩ := isNew_of_new created
  obtain ⟨observed, isArmed, observes, -⟩ := trigger_of_entersDeep enters
  rcases timely with ticks | ⟨gap, regular, short⟩
  · have entered := (streak_run isBasic sinceBasic).entered isArmed
    obtain ⟨earlier, configGeneration, ticked⟩ := ticks _ call rest split (by rw [observes]; nofun)
    unfold stateAfter at isArmed
    rw [ticked, run_snoc] at entered isArmed
    obtain ⟨same, early⟩ := armed_of_tick isArmed
    have armedAt : arming.tsNs = (run step start earlier).enteredTsNs :=
      (Option.some.inj entered).trans same
    unfold elapsed at early
    rw [policy_run, Fin.lt_def, saturatingSub_val, ← armedAt] at early
    omega
  · rw [split] at regular
    have near := tsNs_le_of_observedWithin regular isBasic sinceBasic isArmed
      (by rw [observes]; rfl)
    omega

/-- Two observations within the arming timeout, and no tick before them. -/
theorem arming_timeout_is_honoured_regular :
    let arming : ControllerCall := .observe 1_000 6_000_000 2
    let call : ControllerCall := .observe 2_000 7_000_000 2
    EntersDeep (testController 2) [arming] call ∧ call.tsNs.val < arming.tsNs.val + 4_000 := by
  intro arming call
  have enters : EntersDeep (testController 2) [arming] call := by decide +kernel
  have created : new (testPolicy 2) = .ok (testController 2) := by
    decide +kernel
  have regular : ObservedWithin 1_000 [arming, call] :=
    isChain_cons_cons.mpr ⟨by decide, isChain_singleton _⟩
  have sinceBasic : SinceBasic (testController 2) [arming] [] [arming] := by
    have armed : stateAfter (testController 2) [arming] ≠ .basic := by decide +kernel
    have basic : stateAfter (testController 2) [] = .basic := rfl
    exact (sinceBasic_of_basic basic).snoc armed
  exact ⟨enters, @arming_timeout_is_honoured _ _ created _ (.inr ⟨1_000, regular, by decide⟩)
    [] [] [] arming call rfl sinceBasic enters⟩

/-- The controller is armed at 1 000 ns and the arming timeout is 4 000 ns. The second observation
comes at 9 000 ns and makes it go deep. -/
theorem late_observation_goes_deep :
    let first : ControllerCall := .observe 1_000 6_000_000 2
    let second : ControllerCall := .observe 9_000 6_000_000 2
    AdaptiveController.new (testPolicy 2) = .ok (testController 2) ∧
      stateAfter (testController 2) [first] = .armed ∧
      first.tsNs.val + (testPolicy 2).armingTimeoutNs.val ≤ second.tsNs.val ∧
      EntersDeep (testController 2) [first] second := by
  decide +kernel

end EbpfStudio
